import ServiceDoc.Text.Quoted
import ServiceDoc.Yaml.Pen
import ServiceDoc.Yaml.Style

/-!
# Writing texts

Texts are folded at single spaces once a line is longer than eighty columns, unless they are simple
keys. A line break inside single quotes is written as an empty line, and inside double quotes by an
escape.
-/

namespace ServiceDoc.Yaml

/-- The column after which a line is folded. -/
def foldColumn : Nat := 80

/-- A run of equal code points or of code points of one class. -/
inductive Run where
  | spaces
  | breaks
  | word
  deriving DecidableEq, Repr

/-- The class of a code point. -/
def Run.of (code : Nat) : Run :=
  if code = 32 then spaces else if isBreak code then breaks else word

/-- A text as runs of one class each. -/
def runs (codes : List Nat) : List (List Nat) := codes.splitBy fun a b => Run.of a = Run.of b

/-- Write a plain text. -/
def Pen.plain (pen : Pen) (column : Nat) (folds : Bool) (codes : List Nat) : Pen :=
  let started : Pen := { pen.space with isSpaced := false, isFresh := false }
  (runs codes).foldl (fun pen run =>
    if run = [32] ∧ foldColumn < pen.column ∧ folds then
      { pen.indent column with isSpaced := false, isFresh := false }
    else pen.put run) started

/-- A run of line breaks inside single quotes: one more line break, as one alone would be a space.
-/
def Pen.singleBreaks (pen : Pen) (column : Nat) (run : List Nat) : Pen :=
  let opened := if run.head? = some 10 then pen.newLine else pen
  (run.foldl breakWith opened).indent column

/-- Write a text between single quotes; quotes inside are doubled. -/
def Pen.single (pen : Pen) (column : Nat) (folds : Bool) (codes : List Nat) : Pen :=
  let pieces := runs codes
  let inside := pieces.zipIdx.foldl (fun pen (run, position) =>
    let isInner := position ≠ 0 ∧ position + 1 ≠ pieces.length
    match run.head?.map Run.of with
    | some .spaces =>
      if run = [32] ∧ foldColumn < pen.column ∧ folds ∧ isInner then pen.indent column
      else pen.put run
    | some .breaks => pen.singleBreaks column run
    | _ => pen.put (run.flatMap fun code => if code = 39 then [39, 39] else [code]))
    (pen.indicator [39])
  inside.sign [39]

/-- Letters that stand for code points after a backslash. -/
def shortEscapes : List (Nat × Char) := [
  (0, '0'), (7, 'a'), (8, 'b'), (9, 't'), (10, 'n'), (11, 'v'), (12, 'f'), (13, 'r'), (27, 'e'),
  (34, '"'), (92, '\\'), (0x85, 'N'), (0xa0, '_'), (0x2028, 'L'), (0x2029, 'P')]

/-- Whether a code point is escaped between double quotes. -/
def isEscaped (code : Nat) : Bool :=
  code == 34 || code == 92 || code == 0x85 || code == 0x2028 || code == 0x2029 || code == 0xfeff ||
    !((32 ≤ code && code ≤ 126) || (0xa0 ≤ code && code ≤ 0xd7ff) ||
      (0xe000 ≤ code && code ≤ 0xfffd))

/-- The upper case hexadecimal digits of a number. -/
def upperHex (width n : Nat) : List Char := (Text.hex width n).map Char.toUpper

/-- The escape of a code point. -/
def escapeOf (code : Nat) : List Nat :=
  let written := match shortEscapes.lookup code with
    | some letter => [letter]
    | none =>
      if code < 0x100 then 'x' :: upperHex 2 code
      else if code < 0x10000 then 'u' :: upperHex 4 code
      else 'U' :: upperHex 8 code
  92 :: written.map Char.toNat

/-- Fold a line inside double quotes before a code point; a space at the start of the new line is
kept by a backslash. -/
def Pen.foldDouble (pen : Pen) (column : Nat) (next : Option Nat) : Pen :=
  let folded : Pen := { (pen.put [92]).indent column with isSpaced := false, isFresh := false }
  if next = some 32 then folded.put [92] else folded

/-- Write the inside of double quotes; `pending` holds ordinary code points, the last first, that
are still to be written. -/
def Pen.doubleInside (column : Nat) (folds : Bool) (isFirst : Bool) (pending : List Nat) (pen : Pen) :
    List Nat → Pen
  | [] => pen.put pending.reverse
  | code :: rest =>
    let canFold := folds && !isFirst && !rest.isEmpty
    if isEscaped code then
      let escaped := (pen.put pending.reverse).put (escapeOf code)
      let folded :=
        if canFold && foldColumn + 1 < escaped.column then escaped.foldDouble column rest.head?
        else escaped
      doubleInside column folds false [] folded rest
    else if canFold && (code == 32 || pending.isEmpty) &&
        foldColumn < pen.column + pending.length then
      doubleInside column folds false [code]
        ((pen.put pending.reverse).foldDouble column (some code)) rest
    else doubleInside column folds false (code :: pending) pen rest

/-- Write a text between double quotes. -/
def Pen.double (pen : Pen) (column : Nat) (folds : Bool) (codes : List Nat) : Pen :=
  (Pen.doubleInside column folds true [] (pen.indicator [34]) codes).sign [34]

/-- Write lines as a block. -/
def Pen.literal (pen : Pen) (column : Nat) (lines : List (List Nat)) : Pen :=
  lines.foldl (fun pen line => ((pen.indent column).put line).newLine)
    (pen.indicator [124]).newLine

/-- Write a text in a style; lines after the first start at a column. -/
def Pen.styled (pen : Pen) (style : Style) (column : Nat) (folds : Bool) (codes : List Nat) : Pen :=
  match style with
  | .plain => pen.plain column folds codes
  | .single => pen.single column folds codes
  | .double => pen.double column folds codes
  | .literal => pen.literal column ((codes.splitOn 10).filter fun line => !line.isEmpty)

end ServiceDoc.Yaml
