import ServiceDoc.Text.Code

/-!
# Styles of scalars

A text is written plain where that can not be mistaken for anything else, between single quotes
where line folding can not change it, and between double quotes otherwise.
-/

namespace ServiceDoc.Yaml

/-- How a scalar is written. -/
inductive Style where
  | plain
  | single
  | double
  /-- As a block of lines. -/
  | literal
  deriving DecidableEq, Repr

/-- Whether a code point ends a line. -/
def isBreak (code : Nat) : Bool :=
  code == 10 || code == 0x85 || code == 0x2028 || code == 0x2029

/-- Whether a code point is a space or ends a line. -/
def isSpaceOrBreak (code : Nat) : Bool := code == 32 || isBreak code

/-- Whether a code point separates words. -/
def isSeparator (code : Nat) : Bool :=
  code == 0 || code == 9 || code == 13 || isSpaceOrBreak code

/-- Whether a code point stands for itself outside double quotes. -/
def isOrdinary (code : Nat) : Bool :=
  code == 10 || (32 ≤ code && code ≤ 126) || code == 0x85 || (0xa0 ≤ code && code ≤ 0xd7ff) ||
    (0xe000 ≤ code && code ≤ 0xfffd && code != 0xfeff) || (0x10000 ≤ code && code < 0x10ffff)

/-- Indicators that can not start a plain scalar. -/
def leadingIndicators : List Nat := Text.codes "#,[]\x7b\x7d&*!|>'\"%@`"

/-- Whether the first code point of a text would be an indicator. -/
def startsWithIndicator (codes : List Nat) : Bool :=
  match codes with
  | [] => false
  | first :: rest =>
    leadingIndicators.contains first ||
      ([45, 58, 63].contains first && rest.head?.all isSeparator) ||
      codes.take 3 = [45, 45, 45] || codes.take 3 = [46, 46, 46]

/-- Whether a text holds, behind its first code point, a colon at the end of a word or a number sign
at the start of one. -/
def holdsIndicator : List Nat → Bool
  | before :: code :: rest =>
    (code == 58 && rest.head?.all isSeparator) || (code == 35 && isSeparator before) ||
      holdsIndicator (code :: rest)
  | _ => false

/-- Whether two neighbours in a text have given properties. -/
def hasNeighbours (first second : Nat → Bool) : List Nat → Bool
  | a :: b :: rest => (first a && second b) || hasNeighbours first second (b :: rest)
  | _ => false

/-- Whether a text has several lines. -/
def isMultiline (codes : List Nat) : Bool := codes.any isBreak

/-- Whether a text can only stand between double quotes: it holds code points that do not stand for
themselves, or a line that ends with a space. -/
def needsEscapes (codes : List Nat) : Bool :=
  codes.any (fun code => !isOrdinary code) || hasNeighbours (· == 32) isBreak codes

/-- Whether a text stands for itself between single quotes. -/
def allowsSingle (codes : List Nat) : Bool :=
  !needsEscapes codes && !hasNeighbours isBreak (· == 32) codes

/-- Whether a text stands for itself without quotes. -/
def allowsPlain (codes : List Nat) : Bool :=
  allowsSingle codes && !isMultiline codes && !startsWithIndicator codes && !holdsIndicator codes &&
    codes.head?.all (fun code => !isSpaceOrBreak code) &&
    codes.getLast?.all (fun code => !isSpaceOrBreak code)

/-- The style of a text that is a simple key or not, and whose plain form is read back as what it is
or not. -/
def styleOf (isSimpleKey readsBack : Bool) (codes : List Nat) : Style :=
  let needsOneLine := isSimpleKey && (codes.isEmpty || isMultiline codes)
  if readsBack && !needsOneLine && allowsPlain codes then .plain
  else if allowsSingle codes && !(isSimpleKey && isMultiline codes) then .single
  else .double

end ServiceDoc.Yaml
