import ServiceDoc.Text.Blank
import ServiceDoc.Text.Ranges

/-!
# Integers written by people

An integer can be written with the decimal digits of any script, a sign, blanks around it and single
underscores between digits.
-/

namespace ServiceDoc.Text

/-- The zeros of the decimal digits of every script (Unicode 14.0); each starts a run of ten. -/
def digitZeros : List Nat := [
  48, 1632, 1776, 1984, 2406, 2534, 2662, 2790, 2918, 3046, 3174, 3302, 3430, 3558, 3664, 3792,
  3872, 4160, 4240, 6112, 6160, 6470, 6608, 6784, 6800, 6992, 7088, 7232, 7248, 42528, 43216, 43264,
  43472, 43504, 43600, 44016, 65296, 66720, 68912, 69734, 69872, 69942, 70096, 70384, 70736, 70864,
  71248, 71360, 71472, 71904, 72016, 72784, 73040, 73120, 92768, 92864, 93008, 120782, 120792,
  120802, 120812, 120822, 123200, 123632, 125264, 130032]

/-- The value of a decimal digit of any script. -/
def digitValue? (c : Char) : Option Nat :=
  (digitZeros.find? fun first => first ≤ c.toNat && c.toNat < first + 10).map (c.toNat - ·)

/-- The values of digits, single underscores between them left out. -/
def digitValues? : List Char → Option (List Nat)
  | [] => none
  | [c] => (digitValue? c).map ([·])
  | c :: '_' :: rest => do
    let digit ← digitValue? c
    let digits ← digitValues? rest
    return digit :: digits
  | c :: rest => do
    let digit ← digitValue? c
    let digits ← digitValues? rest
    return digit :: digits

/-- Whether a number starts with a minus sign, and what follows the sign. -/
def splitSign : List Char → Bool × List Char
  | '-' :: rest => (true, rest)
  | '+' :: rest => (false, rest)
  | text => (false, text)

/-- The integer that a text writes, with at most 4300 digits. -/
def integer? (text : String) : Option Int := do
  let (negative, unsigned) := splitSign (trimNumber text.toList)
  let digits ← digitValues? unsigned
  if 4300 < digits.length then none
  else
    let magnitude : Nat := digits.foldl (fun n digit => n * 10 + digit) 0
    return if negative then -(magnitude : Int) else magnitude

end ServiceDoc.Text
