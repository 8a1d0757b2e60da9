import ServiceDoc.Text.Code
import ServiceDoc.Value.Basic

/-!
# Reading JSON

Objects keep the order in which keys first appear, and a repeated key keeps its place and takes the
last value. `NaN`, `Infinity` and `-Infinity` are numbers. Integers have any size up to a limit on
their digits; a number with a fraction or an exponent is a double.
-/

namespace ServiceDoc.Json

/-- What is wrong with a text at some place. -/
inductive Flaw where
  | value
  /-- No name of a member starts here. -/
  | name
  /-- The colon after a name is missing. -/
  | colon
  /-- Neither a comma nor the closing bracket follows a value. -/
  | comma
  /-- The string that starts here does not end. -/
  | openString
  /-- A control character stands in a string. -/
  | control
  | escape
  /-- The four hexadecimal digits of an escape are incomplete. -/
  | unicodeEscape
  /-- Something follows the value. -/
  | extra
  deriving DecidableEq, Repr

/-- Why a text could not be read. -/
inductive ReadError where
  /-- The text is malformed at a position. -/
  | malformed (flaw : Flaw) (position : Nat)
  /-- An integer has more digits than can be read. -/
  | longInteger
  /-- Containers are too deep inside of each other. -/
  | tooDeep
  deriving DecidableEq, Repr

/-- The wording of a flaw. -/
def Flaw.message : Flaw → String
  | .value => "Expecting value"
  | .name => "Expecting property name enclosed in double quotes"
  | .colon => "Expecting ':' delimiter"
  | .comma => "Expecting ',' delimiter"
  | .openString => "Unterminated string starting at"
  | .control => "Invalid control character at"
  | .escape => "Invalid \\escape"
  | .unicodeEscape => "Invalid \\uXXXX escape"
  | .extra => "Extra data"

/-- A place in a text. -/
structure Place where
  line : Nat
  column : Nat
  /-- The number of characters before it. -/
  offset : Nat
  deriving DecidableEq, Repr

/-- The place of an offset; lines end at line feeds. -/
def Place.of (text : List Char) (offset : Nat) : Place :=
  let before := text.take offset
  { line := before.count '\n' + 1
    column := (before.reverse.takeWhile (· ≠ '\n')).length + 1
    offset }

/-- A flaw with its place. -/
def Flaw.located (flaw : Flaw) (place : Place) : String :=
  flaw.message ++ s!": line {place.line} column {place.column} (char {place.offset})"

/-- The most decimal digits of an integer. -/
def maxDigits : Nat := 4300

/-- The most containers that can be inside of each other. -/
def maxDepth : Nat := 990

/-- The rest of a text and its offset from the start. -/
structure Cursor where
  /-- The offset of the rest. -/
  position : Nat
  /-- What is still to be read. -/
  rest : List Char

namespace Cursor

/-- Step over a number of characters. -/
def skip (c : Cursor) (count : Nat) : Cursor :=
  ⟨c.position + count, c.rest.drop count⟩

/-- Step over blanks. -/
def skipBlanks (c : Cursor) : Cursor :=
  let blanks := c.rest.takeWhile fun ch => ch = ' ' || ch = '\t' || ch = '\n' || ch = '\r'
  c.skip blanks.length

/-- A flaw here. -/
def fail {α : Type} (c : Cursor) (flaw : Flaw) : Except ReadError α :=
  .error (.malformed flaw c.position)

end Cursor

/-- The value of four hexadecimal digits at the start of a text, which must not end with them. -/
def fourDigits? (text : List Char) : Option Nat :=
  if (text.drop 4).isEmpty then none else Text.ofDigits? 16 (text.take 4)

/-- The character that a backslash and a letter stand for. -/
def simpleEscape? : Char → Option Nat
  | '"' => some 34
  | '\\' => some 92
  | '/' => some 47
  | 'b' => some 8
  | 'f' => some 12
  | 'n' => some 10
  | 'r' => some 13
  | 't' => some 9
  | _ => none

/-- The low half that follows a high surrogate, written as a second escape. -/
def lowHalf? (rest : List Char) : Except Unit (Option Nat) :=
  match rest with
  | '\\' :: 'u' :: digits =>
    if (digits.drop 4).isEmpty then .ok none
    else match Text.ofDigits? 16 (digits.take 4) with
      | none => .error ()
      | some low => .ok (if Text.isLowSurrogate low then some low else none)
  | _ => .ok none

/-- Read the rest of a string that started at `start`, up to its closing quote. -/
def readText (start : Nat) : (fuel : Nat) → Cursor → Except ReadError (List Nat × Cursor)
  | 0, _ => .error (.malformed .openString start)
  | fuel + 1, c =>
    match c.rest with
    | [] => .error (.malformed .openString start)
    | '"' :: _ => .ok ([], c.skip 1)
    | ['\\'] => .error (.malformed .openString start)
    | '\\' :: 'u' :: rest =>
      match fourDigits? rest with
      | none => (c.skip 1).fail .unicodeEscape
      | some code =>
        match if Text.isHighSurrogate code then lowHalf? (rest.drop 4) else .ok none with
        | .error () => (c.skip 7).fail .unicodeEscape
        | .ok (some low) => do
          let (codes, last) ← readText start fuel (c.skip 12)
          return (Text.joinPair code low :: codes, last)
        | .ok none => do
          let (codes, last) ← readText start fuel (c.skip 6)
          return (code :: codes, last)
    | '\\' :: letter :: _ =>
      match simpleEscape? letter with
      | none => c.fail .escape
      | some code => do
        let (codes, last) ← readText start fuel (c.skip 2)
        return (code :: codes, last)
    | ch :: _ =>
      if ch.toNat < 32 then c.fail .control
      else do
        let (codes, last) ← readText start fuel (c.skip 1)
        return (ch.toNat :: codes, last)

/-- Read a string; the cursor stands behind the opening quote. -/
def readString (fuel : Nat) (c : Cursor) : Except ReadError (Scalar × Cursor) := do
  let (codes, last) ← readText (c.position - 1) fuel c
  return (.ofCodes codes, last)

/-- The length of the exponent at the start of a text, zero if none is complete. -/
def exponentLength : List Char → Nat
  | e :: rest =>
    if e = 'e' || e = 'E' then
      let sign := match rest with
        | s :: _ => if s = '+' || s = '-' then 1 else 0
        | [] => 0
      let digits := (rest.drop sign).takeWhile Text.isDigit
      if digits.isEmpty then 0 else 1 + sign + digits.length
    else 0
  | [] => 0

/-- The length of the fraction at the start of a text, zero if no digit follows the point. -/
def fractionLength : List Char → Nat
  | '.' :: rest =>
    let digits := rest.takeWhile Text.isDigit
    if digits.isEmpty then 0 else 1 + digits.length
  | _ => 0

/-- The integer written by an exponent with its letter and sign. -/
def exponentValue (text : List Char) : Int :=
  match text.drop 1 with
  | '-' :: digits => -(Text.ofDecimal digits : Int)
  | '+' :: digits => Text.ofDecimal digits
  | digits => Text.ofDecimal digits

/-- Read a number. -/
def readNumber (c : Cursor) : Except ReadError (Scalar × Cursor) :=
  let negative := c.rest.head? = some '-'
  let unsigned := if negative then c.rest.drop 1 else c.rest
  let whole := match unsigned with
    | '0' :: _ => ['0']
    | _ => unsigned.takeWhile Text.isDigit
  if whole.isEmpty then c.fail .value
  else
    let afterWhole := unsigned.drop whole.length
    let fraction := afterWhole.take (fractionLength afterWhole)
    let afterFraction := afterWhole.drop fraction.length
    let exponent := afterFraction.take (exponentLength afterFraction)
    let last := c.skip ((if negative then 1 else 0) + whole.length + fraction.length +
      exponent.length)
    if fraction.isEmpty && exponent.isEmpty then
      if maxDigits < whole.length then .error .longInteger
      else
        let magnitude : Int := Text.ofDecimal whole
        .ok (.int (if negative then -magnitude else magnitude), last)
    else
      let places := fraction.drop 1
      .ok (.double (Double.ofDecimal negative (Text.ofDecimal (whole ++ places))
        (exponentValue exponent - places.length)), last)

/-- The words that are values. -/
def words : List (String × Scalar) := [
  ("null", .null), ("true", .bool true), ("false", .bool false), ("NaN", .nan []),
  ("Infinity", .double (.infinity false)), ("-Infinity", .double (.infinity true))]

/-- The word at the start of a text. -/
def word? (text : List Char) : Option (String × Scalar) :=
  words.find? fun word => word.1.toList.isPrefixOf text

mutual
/-- Read one value; containers inside of each other are counted against a depth. -/
def readValue : (fuel depth : Nat) → Cursor → Except ReadError (Value × Cursor)
  | 0, _, c => c.fail .value
  | fuel + 1, depth, c =>
    match c.rest with
    | '"' :: _ => do
      let (text, last) ← readString fuel (c.skip 1)
      return (.scalar text, last)
    | '\x7b' :: _ => do
      if depth = 0 then .error ReadError.tooDeep
      let inside := (c.skip 1).skipBlanks
      if inside.rest.head? = some '\x7d' then return (.map [], inside.skip 1)
      let (entries, last) ← readMembers fuel (depth - 1) [] inside
      return (.map entries, last)
    | '[' :: _ => do
      if depth = 0 then .error ReadError.tooDeep
      let inside := (c.skip 1).skipBlanks
      if inside.rest.head? = some ']' then return (.list [], inside.skip 1)
      let (items, last) ← readItems fuel (depth - 1) inside
      return (.list items, last)
    | rest =>
      match word? rest with
      | some (word, scalar) => .ok (.scalar scalar, c.skip word.length)
      | none => do
        let (number, last) ← readNumber c
        return (.scalar number, last)

/-- Read the members of an object up to its closing brace. -/
def readMembers : (fuel depth : Nat) → Entries Value → Cursor →
    Except ReadError (Entries Value × Cursor)
  | 0, _, _, c => c.fail .name
  | fuel + 1, depth, entries, c => do
    if c.rest.head? ≠ some '"' then c.fail .name
    let (key, afterKey) ← readString fuel (c.skip 1)
    let colon := afterKey.skipBlanks
    if colon.rest.head? ≠ some ':' then colon.fail .colon
    let (value, afterValue) ← readValue fuel depth (colon.skip 1).skipBlanks
    let next := afterValue.skipBlanks
    let entries := Entries.put entries key value
    match next.rest.head? with
    | some '\x7d' => return (entries, next.skip 1)
    | some ',' => readMembers fuel depth entries (next.skip 1).skipBlanks
    | _ => next.fail .comma

/-- Read the items of an array up to its closing bracket. -/
def readItems : (fuel depth : Nat) → Cursor → Except ReadError (List Value × Cursor)
  | 0, _, c => c.fail .value
  | fuel + 1, depth, c => do
    let (item, afterItem) ← readValue fuel depth c
    let next := afterItem.skipBlanks
    match next.rest.head? with
    | some ']' => return ([item], next.skip 1)
    | some ',' => do
      let (items, last) ← readItems fuel depth (next.skip 1).skipBlanks
      return (item :: items, last)
    | _ => next.fail .comma
end

/-- Read the value that starts at a cursor. Each step reads at least one character, so the length of
the rest bounds their number. -/
def readHere (c : Cursor) : Except ReadError (Value × Cursor) :=
  readValue (2 * c.rest.length + 1) maxDepth c

/-- Read a text that holds one value and blanks around it. -/
def read (text : List Char) : Except ReadError Value := do
  let (value, last) ← readHere (Cursor.skipBlanks ⟨0, text⟩)
  let tail := last.skipBlanks
  if tail.rest.isEmpty then return value else tail.fail .extra

end ServiceDoc.Json
