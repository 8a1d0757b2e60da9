import ServiceDoc.Double.Basic
import ServiceDoc.Text.Code
import ServiceDoc.Value.Moment

/-!
# Scalars

Values without parts. In YAML any of them can be the key of a mapping; in JSON keys are always
texts.

Dates and times carry a mark, as containers do: two with one mark are one thing used in two places,
and writing YAML names it once and refers to it afterwards. The mark `[]` says that a thing is used
once.
-/

namespace ServiceDoc

/-- Names one thing among those of a document. -/
abbrev Mark := List Nat

/-- Another mark by putting a stamp before it; the mark `[]` stays. -/
def restamp (stamp mark : Mark) : Mark := if mark.isEmpty then [] else stamp ++ mark

/-- A value without parts, which can also be the key of a mapping. -/
inductive Scalar where
  | null
  | bool (value : Bool)
  /-- An integer of any size. -/
  | int (value : Int)
  | double (value : Double)
  /-- What is no number. Two with one mark are one, and no others are the same. -/
  | nan (mark : Mark)
  | string (value : String)
  /-- The code points of a text in which a surrogate stands alone. -/
  | surrogates (codes : List Nat)
  | date (mark : Mark) (value : Date)
  | timestamp (mark : Mark) (value : Timestamp)
  | bytes (value : List UInt8)
  deriving DecidableEq, Repr

/-- Code points as a text. -/
def Scalar.ofCodes (codes : List Nat) : Scalar :=
  match Text.ofCodes? codes with
  | some s => .string s
  | none => .surrogates codes

/-- A number of double precision, or what is none under a mark. -/
def Scalar.ofDouble (mark : Mark) (value : Double) : Scalar :=
  if value.isNaN then .nan mark else .double value

/-- The mark of a date or time. -/
def Scalar.mark : Scalar → Mark
  | .date mark _ | .timestamp mark _ => mark
  | _ => []

/-- Give a date or time another mark, by putting a stamp before it. -/
def Scalar.stamped (stamp : Mark) : Scalar → Scalar
  | .date mark value => .date (restamp stamp mark) value
  | .timestamp mark value => .timestamp (restamp stamp mark) value
  | scalar => scalar

end ServiceDoc
