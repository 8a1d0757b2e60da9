import ServiceDoc.Yaml.Lines
import ServiceDoc.Yaml.Quotes
import ServiceDoc.Yaml.Token

/-!
# The tokens of a YAML text

A text or collection on one line can turn out to be a key when a colon follows it; until then its
place among the tokens is kept. Indentation opens and closes blocks. Where a text goes wrong its
tokens end; what they say before counts first.
-/

namespace ServiceDoc.Yaml

/-- Where a key could start. -/
structure KeyPlace where
  /-- The number of tokens before it. -/
  position : Nat
  /-- Whether only a key can stand there. -/
  isRequired : Bool
  /-- The place in the text. -/
  start : Cursor

/-- How far a text has been cut into tokens. -/
structure Scanner where
  /-- The place in the text. -/
  cursor : Cursor
  /-- The tokens so far, the last first. -/
  tokens : List Token := []
  /-- How many tokens there are. -/
  count : Nat := 0
  /-- How many brackets are open. -/
  depth : Nat := 0
  /-- The column of the block, and minus one outside every block. -/
  column : Int := -1
  /-- The columns of the blocks around it, the innermost first. -/
  outer : List Int := []
  /-- Whether a key can start here. -/
  allowsKey : Bool := true
  /-- Where keys could have started, by the number of open brackets. -/
  keys : List (Nat × KeyPlace) := []

/-- The tokens of a text as far as they are known, and what is wrong with the text behind them. -/
structure Tokens where
  known : List Token
  /-- What is wrong behind them. -/
  failure : Option ReadError

/-- The most characters of a key without a sign. -/
def keyLength : Nat := 1024

namespace Scanner

/-- Add a token. -/
def push (s : Scanner) (token : Token) : Scanner :=
  { s with tokens := token :: s.tokens, count := s.count + 1 }

/-- Add a token and go on at a place. -/
def add (s : Scanner) (token : Token) (next : Cursor) : Scanner :=
  { s.push token with cursor := next }

/-- Add a token of one character. -/
def addSign (s : Scanner) (token : Token) : Scanner := s.add token s.cursor.step

/-- Add a token at an earlier position. -/
def insert (s : Scanner) (position : Nat) (token : Token) : Scanner :=
  { s with tokens := s.tokens.insertIdx (s.count - position) token, count := s.count + 1 }

/-- Whether brackets are open. -/
def isFlow (s : Scanner) : Bool := s.depth != 0

/-- Forget that a key could have started at this depth. -/
def dropKey (s : Scanner) : Except ReadError Scanner :=
  match s.keys.lookup s.depth with
  | none => .ok s
  | some place =>
    if place.isRequired then .error .malformed
    else .ok { s with keys := s.keys.filter fun entry => entry.1 ≠ s.depth }

/-- Whether a key that started at a place ended with its line or is too long by now. -/
def isStale (s : Scanner) (place : KeyPlace) : Bool :=
  place.start.line != s.cursor.line || keyLength < s.cursor.index - place.start.index

/-- Forget the keys that ended with their line or are too long by now. -/
def dropStaleKeys (s : Scanner) : Except ReadError Scanner :=
  if s.keys.any fun entry => s.isStale entry.2 && entry.2.isRequired then .error .malformed
  else .ok { s with keys := s.keys.filter fun entry => !s.isStale entry.2 }

/-- Note that a key could start here. -/
def saveKey (s : Scanner) : Except ReadError Scanner := do
  if !s.allowsKey then return s
  let cleared ← s.dropKey
  let place : KeyPlace :=
    { position := s.count
      isRequired := !s.isFlow && s.column == s.cursor.column
      start := s.cursor }
  return { cleared with keys := (s.depth, place) :: cleared.keys }

/-- Close the blocks that are indented by more than a column. -/
def closeBlocks (column : Int) : List Int → Scanner → Scanner
  | outer, s =>
    if s.column ≤ column then s
    else
      let closed := s.push .blockEnd
      match outer with
      | [] => { closed with column := -1, outer := [] }
      | next :: rest => closeBlocks column rest { closed with column := next, outer := rest }

/-- Close the blocks that are indented by more than a column, unless brackets are open. -/
def unwind (s : Scanner) (column : Int) : Scanner :=
  if s.isFlow then s else closeBlocks column s.outer s

/-- Open a block at a column, if it is further in than the block around it; its first token stands
at a position. -/
def openBlock (s : Scanner) (column : Int) (position : Nat) (token : Token) : Scanner :=
  if s.column < column then
    { s.insert position token with column, outer := s.column :: s.outer }
  else s

/-- Open a block here. -/
def openHere (s : Scanner) (token : Token) : Except ReadError Scanner :=
  if s.isFlow then .ok s
  else if !s.allowsKey then .error .malformed
  else .ok (s.openBlock s.cursor.column s.count token)

/-- End all blocks. -/
def endBlocks (s : Scanner) : Except ReadError Scanner := do
  let cleared ← (s.unwind (-1)).dropKey
  return { cleared with allowsKey := false }

/-- Open a bracket. -/
def openBracket (s : Scanner) (token : Token) : Except ReadError Scanner := do
  let saved ← s.saveKey
  return { saved.addSign token with depth := s.depth + 1, allowsKey := true }

/-- Close a bracket. -/
def closeBracket (s : Scanner) (token : Token) : Except ReadError Scanner := do
  if !s.isFlow then .error ReadError.malformed
  let cleared ← s.dropKey
  return { cleared.addSign token with depth := s.depth - 1, allowsKey := false }

/-- Separate items between brackets. -/
def separate (s : Scanner) : Except ReadError Scanner := do
  let cleared ← s.dropKey
  return { cleared.addSign .comma with allowsKey := true }

/-- Start an item of a block. -/
def startItem (s : Scanner) : Except ReadError Scanner := do
  let cleared ← (← s.openHere .blockSequenceStart).dropKey
  return { cleared.addSign .item with allowsKey := true }

/-- Start a key with its sign. -/
def startKey (s : Scanner) : Except ReadError Scanner := do
  let cleared ← (← s.openHere .blockMappingStart).dropKey
  return { cleared.addSign .key with allowsKey := !s.isFlow }

/-- Start a value. If a key could have started before, it did. -/
def startValue (s : Scanner) : Except ReadError Scanner := do
  match s.keys.lookup s.depth with
  | some place =>
    let keyed := { s with keys := s.keys.filter fun entry => entry.1 ≠ s.depth }.insert
      place.position .key
    let opened := if s.isFlow then keyed
      else keyed.openBlock place.start.column place.position .blockMappingStart
    return { opened.addSign .value with allowsKey := false }
  | none =>
    let opened ← s.openHere .blockMappingStart
    return { opened.addSign .value with allowsKey := !s.isFlow }

/-- Add what can be a key. -/
def addNode (s : Scanner) (token : Token) (next : Cursor) : Except ReadError Scanner := do
  let saved ← s.saveKey
  return { saved.add token next with allowsKey := false }

/-- Add a plain text. -/
def addPlain (fuel : Nat) (s : Scanner) : Except ReadError Scanner := do
  let saved ← s.saveKey
  let (codes, isBroken, last) := s.cursor.plain fuel s.isFlow (s.column + 1)
  return { saved.add (.scalar true codes) last with allowsKey := isBroken }

/-- Add a block of lines. -/
def addBlock (fuel : Nat) (s : Scanner) : Except ReadError Scanner := do
  let cleared ← s.dropKey
  let (codes, last) ← s.cursor.block fuel s.column
  return { cleared.add (.scalar false codes) last with allowsKey := true }

/-- Characters that can not start a plain text. -/
def notPlain : List Char := "-?:,[]\x7b\x7d#&*!|>'\"%@\x60".toList

/-- Whether a plain text starts here. -/
def startsPlain (s : Scanner) (c : Char) (rest : List Char) : Bool :=
  (!atBlank [c] && !notPlain.contains c) ||
    (!atBlank rest && (c == '-' || (!s.isFlow && (c == '?' || c == ':'))))

/-- Step over spaces, comments and ends of lines. -/
def skipToToken : (fuel : Nat) → Scanner → Scanner
  | 0, s => s
  | fuel + 1, s =>
    let start := if s.cursor.index = 0 ∧ s.cursor.rest.head? = some '\ufeff' then s.cursor.step
      else s.cursor
    match start.skipSpaces.skipComment.takeBreak with
    | (none, last) => { s with cursor := last }
    | (some _, next) =>
      skipToToken fuel { s with cursor := next, allowsKey := s.allowsKey || !s.isFlow }

/-- Add the token that starts here. -/
def addToken (fuel : Nat) (s : Scanner) (c : Char) (rest : List Char) :
    Except ReadError Scanner := do
  let place := s.cursor
  if place.column = 0 ∧ c = '%' then
    let ended ← s.endBlocks
    let (content, last) ← place.directive
    return ended.add (.directive content) last
  if place.column = 0 ∧ atDocumentMark (c :: rest) then
    let ended ← s.endBlocks
    return ended.add (if c = '-' then .documentStart else .documentEnd) (place.skip 3)
  match c with
  | '[' => s.openBracket .sequenceStart
  | '\x7b' => s.openBracket .mappingStart
  | ']' => s.closeBracket .sequenceEnd
  | '\x7d' => s.closeBracket .mappingEnd
  | ',' => s.separate
  | '*' => do
    let (name, last) ← place.anchorName
    s.addNode (.alias name) last
  | '&' => do
    let (name, last) ← place.anchorName
    s.addNode (.anchor name) last
  | '!' => do
    let (text, last) ← place.tagText
    s.addNode (.tag text) last
  | '\'' | '"' => do
    let (codes, last) ← place.quoted fuel
    s.addNode (.scalar false codes) last
  | _ =>
    if c = '-' ∧ atBlank rest then s.startItem
    else if c = '?' ∧ (s.isFlow ∨ atBlank rest) then s.startKey
    else if c = ':' ∧ (s.isFlow ∨ atBlank rest) then s.startValue
    else if (c = '|' ∨ c = '>') ∧ !s.isFlow then s.addBlock fuel
    else if s.startsPlain c rest then s.addPlain fuel
    else .error .malformed

/-- Go on to the next token; says whether the text has ended. -/
def advance (fuel : Nat) (s : Scanner) : Except ReadError (Scanner × Bool) := do
  let start ← (skipToToken fuel s).dropStaleKeys
  let unwound := start.unwind start.cursor.column
  match unwound.cursor.rest with
  | [] => return (← unwound.endBlocks, true)
  | c :: rest => return (← unwound.addToken fuel c rest, false)

/-- The tokens of a text that goes wrong after what has been read. Those from the first place on
where a key could have started are not known. -/
def failing (s : Scanner) (error : ReadError) : Tokens :=
  let places := (s.keys.filter fun entry => !s.isStale entry.2).map fun entry => entry.2.position
  ⟨(s.tokens.drop (s.count - places.foldl min s.count)).reverse, some error⟩

/-- Cut the rest of a text into tokens. Every token but the last reads a character, so that there
are always more steps left than characters. -/
def finish : (fuel : Nat) → Scanner → Tokens
  | 0, s => s.failing .malformed
  | fuel + 1, s =>
    match s.advance (fuel + 1) with
    | .error error => s.failing error
    | .ok (next, isDone) => if isDone then ⟨next.tokens.reverse, none⟩ else finish fuel next

end Scanner

/-- Whether a character can stand in a text. -/
def isReadable (c : Char) : Bool :=
  let code := c.toNat
  code == 9 || code == 10 || (0x20 ≤ code && code ≤ 0x7e) || code == 0x85 ||
    (0xa0 ≤ code && code ≤ 0xfffd) || 0x10000 ≤ code

/-- A text in which a line feed stands for a carriage return, with or without a line feed behind it.
-/
def unifyLines : List Char → List Char
  | [] => []
  | '\r' :: '\n' :: rest => '\n' :: unifyLines rest
  | c :: rest => (if c = '\r' then '\n' else c) :: unifyLines rest

/-- The tokens of a text. -/
def tokensOf (text : List Char) : Tokens :=
  let lines := unifyLines text
  if lines.all isReadable then Scanner.finish (lines.length + 1) { cursor := { rest := lines } }
  else ⟨[], some .malformed⟩

end ServiceDoc.Yaml
