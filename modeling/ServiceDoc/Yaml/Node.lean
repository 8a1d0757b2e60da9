import ServiceDoc.Yaml.Plain
import ServiceDoc.Yaml.Scan

/-!
# Nodes of a YAML document

A document is a graph of tagged nodes. Nodes have numbers, and collections hold the numbers of their
nodes, so that a node that is referred to by its name stands in several places, perhaps inside
itself.
-/

namespace ServiceDoc.Yaml

/-- What a node holds. -/
inductive Content where
  | scalar (codes : List Nat)
  | sequence (items : List Nat)
  /-- The nodes of the keys and values of a mapping. -/
  | mapping (entries : List (Nat × Nat))
  deriving DecidableEq, Repr

/-- A node. -/
structure Node where
  /-- What kind of value it is. -/
  tag : Tag
  content : Content
  deriving DecidableEq, Repr

/-- The node that stands where nothing is written. -/
def Node.nothing : Node := ⟨.null, .scalar []⟩

/-- The nodes of a document by their numbers. -/
abbrev Nodes := Array Node

/-- How far the tokens of a document have been read. -/
structure Reading where
  /-- The tokens that are still to be read. -/
  tokens : List Token
  /-- What is wrong with the text behind them. -/
  failure : Option ReadError
  /-- What the handles in tags stand for. -/
  handles : List (List Char × List Char) := []
  /-- The numbers of the nodes that names stand for. -/
  names : List (List Char × Nat) := []
  nodes : Nodes := #[]
  /-- How many collections are around what is read. -/
  depth : Nat := 0

/-- A step of reading nodes. -/
abbrev Reader := StateT Reading (Except ReadError)

/-- The most collections that can be inside of each other. -/
def deepest : Nat := 487

/-- What tags of the language itself start with. -/
def ownTags : List Char := "tag:yaml.org,2002:".toList

/-- The tags of the language itself. -/
def tagNames : List (String × Tag) := [
  ("null", .null), ("bool", .bool), ("int", .int), ("float", .float), ("timestamp", .timestamp),
  ("merge", .merge), ("value", .value), ("yaml", .indicator), ("str", .string),
  ("binary", .binary), ("seq", .sequence), ("map", .mapping), ("set", .set),
  ("omap", .orderedMap), ("pairs", .pairs)]

/-- The tag of a full name. -/
def tagOf (name : List Char) : Tag :=
  if ownTags.isPrefixOf name then
    (tagNames.lookup (String.ofList (name.drop ownTags.length))).getD .foreign
  else .foreign

/-- What handles stand for unless a directive says otherwise. -/
def ownHandles : List (List Char × List Char) := [(['!'], ['!']), (['!', '!'], ownTags)]

/-- What a text without a tag of its own is; one line feed at its end does not count. -/
def impliedTag (codes : List Nat) : Tag :=
  let line := if codes.getLast? = some 10 ∧ codes.length ≠ 1 then codes.dropLast else codes
  match Text.ofCodes? line with
  | some text => plainTag text.toList
  | none => .string

namespace Reader

/-- The document is not well formed. -/
def fail {α : Type} : Reader α := throw .malformed

/-- The next token, if there is one. -/
def peek : Reader (Option Token) := do
  let reading ← get
  match reading.tokens, reading.failure with
  | token :: _, _ => return some token
  | [], some error => throw error
  | [], none => return none

/-- Step over a token. -/
def skip : Reader Unit := modify fun r => { r with tokens := r.tokens.tail }

/-- Add a node, and say its number. -/
def add (node : Node) : Reader Nat :=
  modifyGet fun r => (r.nodes.size, { r with nodes := r.nodes.push node })

/-- Put a node in the place of the one of a number. -/
def replace (number : Nat) (node : Node) : Reader Unit :=
  modify fun r => { r with nodes := r.nodes.setIfInBounds number node }

/-- Add the node that stands where nothing is written. -/
def nothing : Reader Nat := add .nothing

/-- Read the name of a node, if one is here. -/
def name : Reader (Option (List Char)) := do
  match ← peek with
  | some (.anchor text) =>
    skip
    return some text
  | _ => return none

/-- Read the tag of a node, if one is here. -/
def tag : Reader (Option TagText) := do
  match ← peek with
  | some (.tag text) =>
    skip
    return some text
  | _ => return none

/-- The full name of a tag. -/
def fullName (text : TagText) : Reader (List Char) := do
  match text.handle with
  | none => return text.rest
  | some handle =>
    match (← get).handles.lookup handle with
    | some meaning => return meaning ++ text.rest
    | none => fail

/-- Give the name of a node to its number. A name is given once. -/
def register (name : Option (List Char)) (number : Nat) : Reader Unit := do
  match name with
  | none => return
  | some text =>
    if ((← get).names.lookup text).isSome then fail
    modify fun r => { r with names := (text, number) :: r.names }

/-- Read what is inside of one more collection. -/
def inside {α : Type} (content : Reader α) : Reader α := do
  if deepest ≤ (← get).depth then throw .endless
  modify fun r => { r with depth := r.depth + 1 }
  let result ← content
  modify fun r => { r with depth := r.depth - 1 }
  return result

/-- Add a collection with a name, and read what it holds. -/
def collection (name : Option (List Char)) (tag : Tag) (content : Reader Content) : Reader Nat := do
  let number ← add ⟨tag, .scalar []⟩
  register name number
  replace number ⟨tag, ← inside content⟩
  return number

/-- Add a text with a name. -/
def text (name : Option (List Char)) (tag : Tag) (codes : List Nat) : Reader Nat := do
  let number ← add ⟨tag, .scalar codes⟩
  register name number
  return number

mutual
/-- Read a node. Block style can be allowed, and items that are not indented as well. -/
def node (inBlock unindented : Bool) : (fuel : Nat) → Reader Nat
  | 0 => fail
  | fuel + 1 => do
    match ← peek with
    | some (.alias text) =>
      skip
      match (← get).names.lookup text with
      | some number => return number
      | none => fail
    | _ => do
      let early ← name
      let written ← tag
      let name ← if early.isSome then pure early else name
      let full ← written.mapM fullName
      let tag := (full.filter fun text => text ≠ ['!']).map tagOf
      match ← peek with
      | some (.scalar isPlain codes) =>
        skip
        let implied := if isPlain || full.isSome then impliedTag codes else .string
        text name (tag.getD implied) codes
      | some .sequenceStart =>
        skip
        collection name (tag.getD .sequence) (.sequence <$> flowItems true fuel)
      | some .mappingStart =>
        skip
        collection name (tag.getD .mapping) (.mapping <$> flowEntries true fuel)
      | next =>
        if next = some .item ∧ unindented then
          collection name (tag.getD .sequence) (.sequence <$> looseItems fuel)
        else if next = some .blockSequenceStart ∧ inBlock then
          skip
          collection name (tag.getD .sequence) (.sequence <$> blockItems fuel)
        else if next = some .blockMappingStart ∧ inBlock then
          skip
          collection name (tag.getD .mapping) (.mapping <$> blockEntries fuel)
        else if name.isSome || full.isSome then
          text name (tag.getD .null) []
        else fail

/-- Read a node, or nothing if one of some tokens comes next. -/
def nodeOrNothing (inBlock unindented : Bool) (ends : List Token) : (fuel : Nat) → Reader Nat
  | 0 => fail
  | fuel + 1 => do
    match ← peek with
    | some token => if ends.contains token then nothing else node inBlock unindented fuel
    | none => fail

/-- Read the items of a sequence in block style. -/
def blockItems : (fuel : Nat) → Reader (List Nat)
  | 0 => fail
  | fuel + 1 => do
    match ← peek with
    | some .item =>
      skip
      let first ← nodeOrNothing true false [.item, .blockEnd] fuel
      return first :: (← blockItems fuel)
    | some .blockEnd =>
      skip
      return []
    | _ => fail

/-- Read the items of a sequence that is not indented. -/
def looseItems : (fuel : Nat) → Reader (List Nat)
  | 0 => fail
  | fuel + 1 => do
    match ← peek with
    | some .item =>
      skip
      let first ← nodeOrNothing true false [.item, .key, .value, .blockEnd] fuel
      return first :: (← looseItems fuel)
    | _ => return []

/-- Read the entries of a mapping in block style. -/
def blockEntries : (fuel : Nat) → Reader (List (Nat × Nat))
  | 0 => fail
  | fuel + 1 => do
    match ← peek with
    | some .key =>
      skip
      let key ← nodeOrNothing true true [.key, .value, .blockEnd] fuel
      let value ← match ← peek with
        | some .value =>
          skip
          nodeOrNothing true true [.key, .value, .blockEnd] fuel
        | _ => nothing
      return (key, value) :: (← blockEntries fuel)
    | some .blockEnd =>
      skip
      return []
    | _ => fail

/-- Read the items of a sequence between brackets. A key and its value can stand there without
braces. -/
def flowItems (isFirst : Bool) : (fuel : Nat) → Reader (List Nat)
  | 0 => fail
  | fuel + 1 => do
    if (← peek) = some .sequenceEnd then
      skip
      return []
    if !isFirst then
      if (← peek) ≠ some .comma then fail
      skip
    match ← peek with
    | some .sequenceEnd =>
      skip
      return []
    | some .key =>
      skip
      let pair ← collection none .mapping do
        let key ← nodeOrNothing false false [.value, .comma, .sequenceEnd] fuel
        let value ← match ← peek with
          | some .value =>
            skip
            nodeOrNothing false false [.comma, .sequenceEnd] fuel
          | _ => nothing
        return .mapping [(key, value)]
      return pair :: (← flowItems false fuel)
    | _ =>
      let first ← node false false fuel
      return first :: (← flowItems false fuel)

/-- Read the entries of a mapping between braces. -/
def flowEntries (isFirst : Bool) : (fuel : Nat) → Reader (List (Nat × Nat))
  | 0 => fail
  | fuel + 1 => do
    if (← peek) = some .mappingEnd then
      skip
      return []
    if !isFirst then
      if (← peek) ≠ some .comma then fail
      skip
    match ← peek with
    | some .mappingEnd =>
      skip
      return []
    | some .key =>
      skip
      let key ← nodeOrNothing false false [.value, .comma, .mappingEnd] fuel
      let value ← match ← peek with
        | some .value =>
          skip
          nodeOrNothing false false [.comma, .mappingEnd] fuel
        | _ => nothing
      return (key, value) :: (← flowEntries false fuel)
    | _ =>
      let key ← node false false fuel
      let value ← nothing
      return (key, value) :: (← flowEntries false fuel)
end

/-- Read directives: the version of the language once at most, and every handle once at most. -/
def directives (hasVersion : Bool) (handles : List (List Char × List Char)) :
    (fuel : Nat) → Reader (List (List Char × List Char))
  | 0 => fail
  | fuel + 1 => do
    match ← peek with
    | some (.directive content) =>
      skip
      match content with
      | .version major _ =>
        if hasVersion || major ≠ 1 then fail else directives true handles fuel
      | .handle name meaning =>
        if (handles.lookup name).isSome then fail
        else directives hasVersion ((name, meaning) :: handles) fuel
      | .other => directives hasVersion handles fuel
    | _ => return handles ++ ownHandles

/-- Read the mark at the start of a document, with the directives before it. -/
def mark (fuel : Nat) : Reader Unit := do
  let handles ← directives false [] fuel
  if (← peek) ≠ some .documentStart then fail
  skip
  modify fun r => { r with handles }

/-- Read the node at the top of a document; a document with a mark can be empty. -/
def root (fuel : Nat) : Reader Nat := do
  match ← peek with
  | some (.directive _) | some .documentStart =>
    mark fuel
    match ← peek with
    | none | some (.directive _) | some .documentStart | some .documentEnd => nothing
    | _ => node true false fuel
  | _ =>
    modify fun r => { r with handles := ownHandles }
    node true false fuel

/-- Step over the marks at the end of a document. -/
def skipEnds : (fuel : Nat) → Reader Unit
  | 0 => return
  | fuel + 1 => do
    if (← peek) = some .documentEnd then
      skip
      skipEnds fuel

/-- Read a text with one document at most. -/
def document (fuel : Nat) : Reader (Option Nat) := do
  if (← peek) = none then return none
  let number ← root fuel
  skipEnds fuel
  if (← peek) = none then return some number
  mark fuel
  fail

end Reader

/-- A document: its nodes, and the number of the one at the top. -/
structure Graph where
  nodes : Nodes
  /-- The number of the node at the top. -/
  root : Nat

/-- Read the tokens of a text with one document at most; one without a document holds nothing. -/
def Graph.ofTokens (tokens : Tokens) : Except ReadError Graph := do
  let start : Reading := { tokens := tokens.known, failure := tokens.failure }
  let (root, last) ← (Reader.document (3 * tokens.known.length + 3)).run start
  match root with
  | some number => return ⟨last.nodes, number⟩
  | none => return ⟨#[.nothing], 0⟩

end ServiceDoc.Yaml
