import ServiceDoc.Text.Pieces
import ServiceDoc.Yaml.Moment

/-!
# Plain scalars

A scalar without quotes is read by its looks: as nothing, a truth value, an integer in one of
several bases, a number, a date or time, or else as a text. Base 60 is written with colons.
-/

namespace ServiceDoc.Yaml

/-- What a scalar is. -/
inductive Tag where
  | null
  | bool
  | int
  | float
  | timestamp
  /-- The key under which other mappings are merged. -/
  | merge
  /-- The key of a default value. -/
  | value
  /-- An indicator, which is no value. -/
  | indicator
  | string
  /-- Bytes in base 64. -/
  | binary
  | sequence
  | mapping
  /-- A mapping whose values do not count. -/
  | set
  /-- A sequence of mappings of one entry each, with different keys. -/
  | orderedMap
  /-- A sequence of mappings of one entry each. -/
  | pairs
  | foreign
  deriving DecidableEq, Repr

/-- The words for nothing. -/
def nullWords : List String := ["~", "null", "Null", "NULL", ""]

/-- The words for truth values. -/
def boolWords : List String := [
  "yes", "Yes", "YES", "no", "No", "NO", "true", "True", "TRUE", "false", "False", "FALSE", "on",
  "On", "ON", "off", "Off", "OFF"]

/-- A text without a sign at its start. -/
def unsigned : List Char → List Char
  | '-' :: rest | '+' :: rest => rest
  | text => text

/-- Whether a character is a digit or an underscore. -/
def isPlace (c : Char) : Bool := Text.isDigit c || c == '_'

/-- Whether a text is a digit followed by digits and underscores. -/
def isCount : List Char → Bool
  | first :: rest => Text.isDigit first && rest.all isPlace
  | [] => false

/-- Whether a text is a place in base 60: one digit, or two of which the first is at most five. -/
def isSixtieth : List Char → Bool
  | [c] => Text.isDigit c
  | [tens, ones] => '0' ≤ tens && tens ≤ '5' && Text.isDigit ones
  | _ => false

/-- Whether a text looks like an integer. -/
def looksLikeInt (text : List Char) : Bool :=
  match unsigned text with
  | ['0'] => true
  | '0' :: 'b' :: places => !places.isEmpty && places.all fun c => c == '0' || c == '1' || c == '_'
  | '0' :: 'x' :: places =>
    !places.isEmpty && places.all fun c => (Text.hexValue? c).isSome || c == '_'
  | '0' :: places => places.all fun c => ('0' ≤ c && c ≤ '7') || c == '_'
  | magnitude =>
    let pieces := Text.cutAt ':' magnitude
    (pieces.head?.any isCount) && (pieces.drop 1).all isSixtieth

/-- Whether a text is empty or an exponent with a sign. -/
def isExponent : List Char → Bool
  | [] => true
  | e :: sign :: digits =>
    (e == 'e' || e == 'E') && (sign == '-' || sign == '+') && !digits.isEmpty &&
      digits.all Text.isDigit
  | _ => false

/-- Whether a text looks like a number with a point. -/
def looksLikeFloat (text : List Char) : Bool :=
  if !text.contains '.' then false
  else
    let (whole, tail) := Text.cutOnce '.' text
    let magnitude := unsigned whole
    let places := tail.takeWhile isPlace
    let exponent := tail.dropWhile isPlace
    let pieces := Text.cutAt ':' magnitude
    (isCount magnitude && isExponent exponent) ||
      (whole.isEmpty && places.head?.any Text.isDigit && isExponent exponent) ||
      (1 < pieces.length && pieces.head?.any isCount && (pieces.drop 1).all isSixtieth &&
        exponent.isEmpty) ||
      (magnitude.isEmpty && String.ofList tail ∈ ["inf", "Inf", "INF"]) ||
      (whole.isEmpty && String.ofList tail ∈ ["nan", "NaN", "NAN"])

/-- What a plain scalar is read as. -/
def plainTag (text : List Char) : Tag :=
  let word := String.ofList text
  if word ∈ nullWords then .null
  else if word ∈ boolWords then .bool
  else if looksLikeFloat text then .float
  else if looksLikeInt text then .int
  else if looksLikeMoment text then .timestamp
  else if word = "<<" then .merge
  else if word = "=" then .value
  else if word ∈ ["!", "&", "*"] then .indicator
  else .string

end ServiceDoc.Yaml
