import ServiceDoc.Yaml.Cursor

/-!
# Reading texts without quotes

A plain text goes on over lines that are indented enough, and its lines are folded. A block keeps
its lines, or folds them; blanks at their starts beyond the indentation belong to the text.

Every step but the last reads a character, so that a bound on what is still to be read bounds the
steps.
-/

namespace ServiceDoc.Yaml

/-- The signs that stand for collections on one line. -/
def isFlowSign (c : Char) : Bool := [',', '[', ']', '\x7b', '\x7d'].contains c

/-- The part of a plain text before a blank, a colon at the end of a word, and, on one line with
other items, before their signs. -/
def plainWord (isFlow : Bool) : List Char → List Char
  | [] => []
  | c :: rest =>
    let isColon := c == ':' && (atBlank rest || (isFlow && rest.head?.any isFlowSign))
    let isSign := isFlow && (isFlowSign c || c == '?')
    if atBlank [c] || isColon || isSign then [] else c :: plainWord isFlow rest

namespace Cursor

/-- What separates two words of a plain text. -/
structure Gap where
  /-- What the gap stands for; nothing if the text ends. -/
  codes : List Nat
  /-- Whether the gap holds the end of a line. -/
  isBroken : Bool
  /-- The place behind the gap. -/
  last : Cursor

/-- Read spaces and empty lines after the end of a line, up to a mark between documents if there is
one; says whether there is. -/
def plainBreaks : (fuel : Nat) → Cursor → List Nat × Bool × Cursor
  | 0, c => ([], false, c)
  | fuel + 1, c =>
    if atDocumentMark c.rest then ([], true, c)
    else
      let inner := c.skipSpaces
      match inner.takeBreak with
      | (none, _) => ([], false, inner)
      | (some code, next) =>
        let (codes, isMarked, last) := plainBreaks fuel next
        (code :: codes, isMarked, last)

/-- Read what follows a word of a plain text. -/
def gap (fuel : Nat) (c : Cursor) : Gap :=
  let (spaces, next) := c.take (· == ' ')
  match next.takeBreak with
  | (none, _) => ⟨spaces.map Char.toNat, false, next⟩
  | (some code, start) =>
    let (others, isMarked, last) := plainBreaks fuel start
    ⟨if isMarked then [] else folded code others, true, last⟩

/-- Read a plain text whose further lines are indented to a column at least. Says whether the text
ends behind the end of a line. -/
def plainFrom (isFlow : Bool) (least : Int) (gapCodes : List Nat) (isBroken : Bool) :
    (fuel : Nat) → Cursor → List Nat × Bool × Cursor
  | 0, c => ([], isBroken, c)
  | fuel + 1, c =>
    let word := if c.rest.head? = some '#' then [] else plainWord isFlow c.rest
    if word.isEmpty then ([], isBroken, c)
    else
      let next := (c.skip word.length).gap fuel
      let isLast := next.codes.isEmpty || next.last.rest.head? = some '#' ||
        (!isFlow && next.last.column < least)
      let (codes, isOpen, last) :=
        if isLast then ([], next.isBroken, next.last)
        else plainFrom isFlow least next.codes next.isBroken fuel next.last
      (gapCodes ++ word.map Char.toNat ++ codes, isOpen, last)

/-- Read a plain text. -/
def plain (fuel : Nat) (c : Cursor) (isFlow : Bool) (least : Int) : List Nat × Bool × Cursor :=
  plainFrom isFlow least [] false fuel c

end Cursor

/-- What happens to the ends of lines at the end of a block. -/
inductive Chomping where
  /-- The last one stays. -/
  | clip
  | strip
  | keep
  deriving DecidableEq, Repr

/-- What stands behind the sign of a block. -/
structure BlockHeader where
  /-- What happens at the end. -/
  chomping : Chomping
  /-- By how much the text is indented, where it is said. -/
  indentation : Option Nat

namespace Cursor

/-- Read how a block ends, where it is said. -/
def chomping (c : Cursor) : Option Chomping × Cursor :=
  match c.rest with
  | '+' :: _ => (some .keep, c.step)
  | '-' :: _ => (some .strip, c.step)
  | _ => (none, c)

/-- Read by how much a block is indented, where it is said; it is not by nothing. -/
def indentation (c : Cursor) : Except ReadError (Option Nat × Cursor) :=
  match c.rest with
  | digit :: _ =>
    if digit = '0' then .error .malformed
    else if Text.isDigit digit then .ok (some (digit.toNat - 48), c.step)
    else .ok (none, c)
  | [] => .ok (none, c)

/-- Read the line of the sign of a block. -/
def blockHeader (c : Cursor) : Except ReadError (BlockHeader × Cursor) := do
  let (early, afterEarly) := c.chomping
  let (indentation, afterNumber) ← afterEarly.indentation
  let (late, last) := if early.isNone && indentation.isSome then afterNumber.chomping
    else (none, afterNumber)
  if !atSpace last.rest then .error ReadError.malformed
  return (⟨(early.or late).getD .clip, indentation⟩, ← last.finishLine)

/-- Read the empty lines at the start of a block whose indentation is that of its first line, and
find the widest indentation among all of them. -/
def firstLines (widest : Nat) : (fuel : Nat) → Cursor → List Nat × Nat × Cursor
  | 0, c => ([], widest, c)
  | fuel + 1, c =>
    let inner := c.skipSpaces
    let widest := max widest inner.column
    match inner.takeBreak with
    | (none, _) => ([], widest, inner)
    | (some code, next) =>
      let (codes, widest, last) := firstLines widest fuel next
      (code :: codes, widest, last)

/-- Step over spaces up to a column. -/
def skipIndent (c : Cursor) (column : Nat) : Cursor :=
  c.skip (min (c.rest.takeWhile (· == ' ')).length (column - c.column))

/-- Read the empty lines between the lines of a block. -/
def blockBreaks (column : Nat) : (fuel : Nat) → Cursor → List Nat × Cursor
  | 0, c => ([], c)
  | fuel + 1, c =>
    let inner := c.skipIndent column
    match inner.takeBreak with
    | (none, _) => ([], inner)
    | (some code, next) =>
      let (codes, last) := blockBreaks column fuel next
      (code :: codes, last)

/-- Whether a line of a block starts with a blank. -/
def startsBlank (c : Cursor) : Bool := c.rest.head?.any fun ch => ch == ' ' || ch == '\t'

/-- Read the lines of a block; `breaks` are the empty lines before the first. The result is the text
up to its last line, the end of that line, and the empty lines after it. -/
def blockLines (isFolded : Bool) (column : Nat) (breaks : List Nat) :
    (fuel : Nat) → Cursor → List Nat × List Nat × List Nat × Cursor
  | 0, c => ([], [], breaks, c)
  | fuel + 1, c =>
    if c.column ≠ column ∨ c.rest.isEmpty then ([], [], breaks, c)
    else
      let (line, atEnd) := c.take fun ch => !endsLine ch
      let (ending, afterLine) := atEnd.takeBreak
      let (others, next) := blockBreaks column fuel afterLine
      let text := breaks ++ line.map Char.toNat
      if next.column = column ∧ !next.rest.isEmpty then
        let joint :=
          if isFolded && ending = some 10 && !c.startsBlank && !next.startsBlank then
            (if others.isEmpty then [32] else [])
          else ending.toList
        let (codes, final, after, last) := blockLines isFolded column others fuel next
        (text ++ joint ++ codes, final, after, last)
      else (text, ending.toList, others, next)

/-- Read a block; the cursor stands on its sign, and the text is indented by more than the node
around it. -/
def block (fuel : Nat) (c : Cursor) (outer : Int) : Except ReadError (List Nat × Cursor) := do
  let isFolded := c.rest.head? = some '>'
  let (header, start) ← c.step.blockHeader
  let least := (max 1 (outer + 1)).toNat
  let (column, breaks, first) := match header.indentation with
    | some width =>
      let column := least + width - 1
      let (breaks, first) := blockBreaks column fuel start
      (column, breaks, first)
    | none =>
      let (breaks, widest, first) := firstLines 0 fuel start
      (max least widest, breaks, first)
  let (text, ending, after, last) := blockLines isFolded column breaks fuel first
  let tail := match header.chomping with
    | .clip => ending
    | .strip => []
    | .keep => ending ++ after
  return (text ++ tail, last)

end Cursor

end ServiceDoc.Yaml
