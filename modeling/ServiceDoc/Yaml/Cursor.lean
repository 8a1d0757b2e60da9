import ServiceDoc.Text.Code
import ServiceDoc.Yaml.Style

/-!
# Places in a YAML text

What is still to be read, with its line and column. Line feed, next line, line separator and
paragraph separator end a line.
-/

namespace ServiceDoc.Yaml

/-- Why a YAML text can not be read. -/
inductive ReadError where
  /-- The text is not well formed, or a tag does not fit what it stands before. -/
  | malformed
  /-- An escape names a code point beyond the last. -/
  | noCharacter (code : Nat)
  | notInteger
  /-- A number has no digits and no sign. -/
  | emptyNumber
  | notNumber
  /-- A text is no truth value. -/
  | notTruth
  /-- A text is no date or time. -/
  | notMoment
  /-- A date or time does not exist. -/
  | noSuchMoment
  /-- A mapping stands where a date or time is written. -/
  | mappingAsMoment
  /-- A number with many places in base 60 is beyond all numbers of double precision. -/
  | tooLarge
  /-- Nodes are too deep inside of each other, or a text is sought without an end. -/
  | endless
  deriving DecidableEq, Repr

/-- A place in a text. -/
structure Cursor where
  /-- What is still to be read. -/
  rest : List Char
  /-- The number of characters before it. -/
  index : Nat := 0
  /-- The number of lines before it. -/
  line : Nat := 0
  /-- The number of characters before it on its line. -/
  column : Nat := 0

/-- Whether a character ends a line. -/
def endsLine (c : Char) : Bool := isBreak c.toNat

/-- Whether a text starts with the end of a line, or is empty. -/
def atLineEnd : List Char → Bool
  | [] => true
  | c :: _ => endsLine c

/-- Whether a text starts with a space or the end of a line, or is empty. -/
def atSpace : List Char → Bool
  | [] => true
  | c :: _ => c == ' ' || endsLine c

/-- Whether a text starts with a space, a tab or the end of a line, or is empty. -/
def atBlank : List Char → Bool
  | [] => true
  | c :: _ => c == ' ' || c == '\t' || endsLine c

/-- Whether a text starts with a mark between documents. -/
def atDocumentMark (text : List Char) : Bool :=
  (text.take 3 = ['-', '-', '-'] || text.take 3 = ['.', '.', '.']) && atBlank (text.drop 3)

/-- Whether a letter, digit, hyphen or underscore. -/
def isNameLetter (c : Char) : Bool := c.isAlphanum || c == '-' || c == '_'

namespace Cursor

/-- Step over one character; a byte order mark takes no column. -/
def step (c : Cursor) : Cursor :=
  match c.rest with
  | [] => c
  | first :: rest =>
    if endsLine first then ⟨rest, c.index + 1, c.line + 1, 0⟩
    else ⟨rest, c.index + 1, c.line, if first = '\ufeff' then c.column else c.column + 1⟩

/-- Step over a number of characters. -/
def skip (c : Cursor) : Nat → Cursor
  | 0 => c
  | count + 1 => c.step.skip count

/-- Step over the characters of a class. -/
def skipWhile (c : Cursor) (isSkipped : Char → Bool) : Cursor :=
  c.skip (c.rest.takeWhile isSkipped).length

/-- The characters of a class that come next, and the place behind them. -/
def take (c : Cursor) (isTaken : Char → Bool) : List Char × Cursor :=
  (c.rest.takeWhile isTaken, c.skipWhile isTaken)

/-- Step over spaces. -/
def skipSpaces (c : Cursor) : Cursor := c.skipWhile (· == ' ')

/-- Step over spaces and tabs. -/
def skipBlanks (c : Cursor) : Cursor := c.skipWhile fun ch => ch == ' ' || ch == '\t'

/-- Step over a comment, if one starts here. -/
def skipComment (c : Cursor) : Cursor :=
  if c.rest.head? = some '#' then c.skipWhile fun ch => !endsLine ch else c

/-- What the end of a line stands for; next line counts as line feed. -/
def lineEnd (c : Char) : Nat := if c = '\x85' then 10 else c.toNat

/-- Step over the end of a line, if one is here, and say what it stands for. -/
def takeBreak (c : Cursor) : Option Nat × Cursor :=
  match c.rest with
  | first :: _ => if endsLine first then (some (lineEnd first), c.step) else (none, c)
  | [] => (none, c)

/-- What lies between two lines of folded text: one end of line is a space, of several the first
does not count, and separators count always. -/
def folded (first : Nat) (others : List Nat) : List Nat :=
  if first ≠ 10 then first :: others else if others.isEmpty then [32] else others

/-- Step over what may follow on a line that has ended: spaces and a comment. -/
def finishLine (c : Cursor) : Except ReadError Cursor :=
  let last := c.skipSpaces.skipComment
  if atLineEnd last.rest then .ok last.takeBreak.2 else .error .malformed

end Cursor

end ServiceDoc.Yaml
