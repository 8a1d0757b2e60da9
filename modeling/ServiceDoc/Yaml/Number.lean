import ServiceDoc.Double.Basic
import ServiceDoc.Text.Integer
import ServiceDoc.Text.Pieces
import ServiceDoc.Yaml.Cursor
import ServiceDoc.Yaml.Plain

/-!
# Numbers in YAML

Underscores do not count. Integers are written in base 2, 8, 10 or 16, and both integers and other
numbers in base 60 with colons between their places. A tag can ask for a number where the text does
not look like one; then blanks around it and the digits of every script are read as well.
-/

namespace ServiceDoc

namespace Double

/-- The number of the other sign. -/
def negate (d : Double) : Double := ⟨d.bits ^^^ 0x8000000000000000⟩

/-- The product, rounded to the nearest double. -/
def times (a b : Double) : Double := ⟨(Float.ofBits a.bits * Float.ofBits b.bits).toBits⟩

/-- The sum, rounded to the nearest double. -/
def plus (a b : Double) : Double := ⟨(Float.ofBits a.bits + Float.ofBits b.bits).toBits⟩

end Double

namespace Yaml

/-- A text with the digits of every script replaced by those of ASCII. -/
def asciiDigits (text : List Char) : List Char :=
  text.map fun c => ((Text.digitValue? c).map fun digit => Char.ofNat (48 + digit)).getD c

/-- The digits behind the letter that can say the base. -/
def withoutBase (base : Nat) : List Char → List Char
  | '0' :: letter :: rest =>
    let isBase := (base == 16 && (letter == 'x' || letter == 'X')) ||
      (base == 8 && (letter == 'o' || letter == 'O')) ||
      (base == 2 && (letter == 'b' || letter == 'B'))
    if isBase then rest else '0' :: letter :: rest
  | text => text

/-- The integer that a text writes in a base, perhaps with a sign; in base 10 its digits are
limited. -/
def integerIn (base : Nat) (text : List Char) : Except ReadError Int :=
  let (negative, magnitude) := Text.splitSign (asciiDigits (Text.trimNumber text))
  let digits := withoutBase base magnitude
  if digits.isEmpty || (base == 10 && 4300 < digits.length) then .error .notInteger
  else match Text.ofDigits? base digits with
    | none => .error .notInteger
    | some n => .ok (if negative then -(n : Int) else n)

/-- Whether the sign of a text is a minus. -/
def isNegative (text : List Char) : Bool := text.head? == some '-'

/-- The magnitude of an integer. -/
def integerMagnitude (text : List Char) : Except ReadError Int :=
  match text with
  | [] => .error .emptyNumber
  | ['0'] => .ok 0
  | '0' :: 'b' :: digits => integerIn 2 digits
  | '0' :: 'x' :: digits => integerIn 16 digits
  | '0' :: _ => integerIn 8 text
  | _ =>
    if text.contains ':' then do
      let places ← (Text.cutAt ':' text).mapM (integerIn 10)
      return places.foldl (fun n place => n * 60 + place) 0
    else integerIn 10 text

/-- The integer that a scalar writes. -/
def readInteger (text : List Char) : Except ReadError Int := do
  let bare := text.filter (· ≠ '_')
  if bare.isEmpty then .error ReadError.emptyNumber
  let magnitude ← integerMagnitude (unsigned bare)
  return if isNegative bare then -magnitude else magnitude

/-- The integer of an exponent, whose letter comes first. -/
def exponentOf? : List Char → Option Int
  | [] => some 0
  | _ :: text =>
    let (negative, digits) := Text.splitSign text
    if digits.isEmpty || !digits.all Text.isDigit then none
    else
      let magnitude : Int := Text.ofDecimal digits
      some (if negative then -magnitude else magnitude)

/-- The number of digits with a point and an exponent. -/
def decimalOf? (negative : Bool) (text : List Char) : Option Double := do
  let isExponent (c : Char) : Bool := c == 'e' || c == 'E'
  let mantissa := text.takeWhile fun c => !isExponent c
  let scale ← exponentOf? (text.dropWhile fun c => !isExponent c)
  let (whole, places) := Text.cutOnce '.' mantissa
  let digits := whole ++ places
  if digits.isEmpty || !digits.all Text.isDigit then none
  else some (.ofDecimal negative (Text.ofDecimal digits) (scale - places.length))

/-- The number that a text in small letters writes, perhaps with a sign. -/
def decimal (text : List Char) : Except ReadError Double :=
  let (negative, magnitude) := Text.splitSign (asciiDigits (Text.trimNumber text))
  if String.ofList magnitude ∈ ["inf", "infinity"] then .ok (.infinity negative)
  else if String.ofList magnitude = "nan" then .ok .nan
  else match decimalOf? negative magnitude with
    | some number => .ok number
    | none => .error .notNumber

/-- The number of places in base 60, the last first. -/
def sixtieths (places : List Double) : Double :=
  (places.zipIdx.foldl (fun sum (place, power) =>
    sum.plus (place.times (.ofQuotient false (Nat.pow 60 power) 1))) (.ofQuotient false 0 1))

/-- The most places of a number in base 60: the weight of one more is beyond all numbers. -/
def mostSixtieths : Nat := 174

/-- The magnitude of a number. -/
def numberMagnitude (text : List Char) : Except ReadError Double :=
  if String.ofList text = ".inf" then .ok (.infinity false)
  else if String.ofList text = ".nan" then .ok .nan
  else if text.contains ':' then do
    let places ← (Text.cutAt ':' text).mapM decimal
    if mostSixtieths < places.length then .error ReadError.tooLarge
    return sixtieths places.reverse
  else decimal text

/-- Whether a text is the word for what is no number, perhaps with a sign. -/
def isNanWord (text : List Char) : Bool :=
  String.ofList (unsigned ((text.filter (· ≠ '_')).map Char.toLower)) == ".nan"

/-- The number that a scalar writes. -/
def readNumber (text : List Char) : Except ReadError Double := do
  let bare := (text.filter (· ≠ '_')).map Char.toLower
  if bare.isEmpty then .error ReadError.emptyNumber
  let magnitude ← numberMagnitude (unsigned bare)
  return if isNegative bare then magnitude.negate else magnitude

end Yaml

end ServiceDoc
