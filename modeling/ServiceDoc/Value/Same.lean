import ServiceDoc.Value.Closed

/-!
# Sameness and order of values

Two values are the same if they are one or hold the same, whatever the order of entries: numbers are
compared by magnitude, a truth value counts as zero or one, times with a distance from universal
time by the instant that they name, and what is no number is the same as itself only. Numbers,
texts, dates, times and sequences have an order, each among themselves; a set comes before those
that hold more.

Containers that hold themselves can be compared without an end.
-/

namespace ServiceDoc

/-! ## Scalars -/

/-- A number as a fraction, unless it is infinite. -/
def Scalar.fraction? : Scalar → Option (Int × Nat)
  | .bool b => some (if b then 1 else 0, 1)
  | .int n => some (n, 1)
  | .double d => if d.isNaN || d.isInfinite then none else some d.toFraction
  | _ => none

/-- The code points of a text. -/
def Scalar.codes? : Scalar → Option (List Nat)
  | .string s => some (s.toList.map Char.toNat)
  | .surrogates codes => some codes
  | _ => none

/-- Whether two scalars are the same. -/
def Scalar.same (a b : Scalar) : Bool :=
  match a.fraction?, b.fraction? with
  | some x, some y => Double.sameFraction x y
  | none, none =>
    match a, b with
    | .date _ x, .date _ y => x == y
    | .timestamp _ x, .timestamp _ y => x.position == y.position
    | _, _ => a = b
  | _, _ => false

/-- Whether a list holds a scalar. -/
def Scalar.among (scalars : List Scalar) (scalar : Scalar) : Bool := scalars.any scalar.same

/-- Whether one list of numbers comes before another in dictionary order. -/
def lessCodes : List Nat → List Nat → Bool
  | _, [] => false
  | [], _ :: _ => true
  | x :: xs, y :: ys => x < y || (x == y && lessCodes xs ys)

/-- The place of an infinite number among the numbers. -/
def Double.side (d : Double) : Int :=
  if d.isNaN then 0 else if d.isInfinite then (if d.isNegative then -1 else 1) else 0

/-- Whether a scalar counts as a number. -/
def Scalar.isNumber : Scalar → Bool
  | .bool _ | .int _ | .double _ | .nan _ => true
  | _ => false

/-- Whether one number comes before another. What is no number comes before none. -/
def Scalar.lessNumber (a b : Scalar) : Bool :=
  match a.fraction?, b.fraction?, a, b with
  | some x, some y, _, _ => Double.lessFraction x y
  | some _, none, _, .double d => 0 < d.side
  | none, some _, .double d, _ => d.side < 0
  | none, none, .double c, .double d => !c.isNaN && !d.isNaN && c.side < d.side
  | _, _, _, _ => false

/-- The fields of a date in the order in which they count. -/
def Date.ranks (d : Date) : List Nat := [d.year, d.month, d.day]

/-- Whether one time comes before another; a time with a distance from universal time and one
without have no order. -/
def Timestamp.less? (a b : Timestamp) : Option Bool :=
  match a.position, b.position with
  | (true, x), (true, y) | (false, x), (false, y) => some (x < y)
  | _, _ => none

/-- Whether one scalar comes before another, if they can be ordered. -/
def Scalar.less? (a b : Scalar) : Option Bool :=
  match a.codes?, b.codes? with
  | some x, some y => some (lessCodes x y)
  | none, none =>
    match a, b with
    | .date _ x, .date _ y => some (lessCodes x.ranks y.ranks)
    | .timestamp _ x, .timestamp _ y => x.less? y
    | .bytes x, .bytes y => some (lessCodes (x.map UInt8.toNat) (y.map UInt8.toNat))
    | _, _ => if a.isNumber && b.isNumber then some (a.lessNumber b) else none
  | _, _ => none

/-! ## Values -/

/-- Whether two marks are those of one thing. -/
def isOneThing (mark other : Mark) : Bool := !mark.isEmpty && mark == other

/-- Whether two lists have the same items under a comparison that can have no end. -/
def sameList? {α : Type} (same : α → α → Option Bool) : List α → List α → Option Bool
  | [], [] => some true
  | x :: xs, y :: ys => do if ← same x y then sameList? same xs ys else some false
  | _, _ => some false

/-- Whether other entries have the same value for every key of a mapping. -/
def sameEntries? (same : Value → Value → Option Bool) (others : Entries Value) :
    Entries Value → Option Bool
  | [] => some true
  | (key, x) :: entries =>
    match others.find? fun entry => key.same entry.1 with
    | none => some false
    | some entry => do if ← same x entry.2 then sameEntries? same others entries else some false

namespace Value

mutual
/-- The number of values that a value consists of. -/
def weight : Value → Nat
  | .array _ items => weightOfItems items + 1
  | .pair _ first second => first.weight + second.weight + 1
  | .object _ entries => weightOfEntries entries + 1
  | _ => 1

/-- The number of values that the items of a sequence consist of. -/
def weightOfItems : List Value → Nat
  | [] => 0
  | item :: items => item.weight + weightOfItems items

/-- The number of values that the values of a mapping consist of. -/
def weightOfEntries : Entries Value → Nat
  | [] => 0
  | (_, value) :: entries => value.weight + weightOfEntries entries
end

/-- Whether two values are the same, unless this takes more than a number of steps inwards. -/
def sameWithin : (fuel : Nat) → Value → Value → Option Bool
  | _, .scalar a, .scalar b => some (a.same b)
  | _, .set _ xs, .set _ ys => some (xs.length == ys.length && xs.all (Scalar.among ys))
  | fuel + 1, .array mark xs, .array other ys =>
    if isOneThing mark other then some true
    else if xs.length ≠ ys.length then some false
    else sameList? (sameWithin fuel) (ownItems mark xs) (ownItems other ys)
  | fuel + 1, .pair mark x y, .pair other z w =>
    if isOneThing mark other then some true else sameList? (sameWithin fuel) [x, y] [z, w]
  | fuel + 1, .object mark xs, .object other ys =>
    if isOneThing mark other then some true
    else if xs.length ≠ ys.length then some false
    else sameEntries? (sameWithin fuel) (ownEntries other ys) (ownEntries mark xs)
  | 0, .array _ _, .array _ _ | 0, .pair _ _ _, .pair _ _ _ | 0, .object _ _, .object _ _ => none
  | _, _, _ => some false

/-- Whether two values are the same, if the comparison ends. One that goes further inwards than
there are pairs of their parts has met a pair twice and has no end. -/
def same? (a b : Value) : Option Bool := sameWithin (a.weight * b.weight + 1) a b

/-- Whether two values are the same. -/
def same (a b : Value) : Bool := (a.same? b).getD false

/-- Two scalars are the same as values if they are as scalars. -/
@[simp] theorem same_scalar (a b : Scalar) : (scalar a).same (scalar b) = a.same b := by
  simp [same, same?, sameWithin]

end Value

/-- Why two values have no order. -/
inductive Disorder where
  /-- Values of their kinds have no order. -/
  | unordered
  /-- The comparison has no end. -/
  | endless
  deriving DecidableEq, Repr

/-- Whether a list comes before another: that of their first items that differ decides, or else
their lengths. -/
def lessList (same : Value → Value → Option Bool) (less : Value → Value → Except Disorder Bool) :
    List Value → List Value → Except Disorder Bool
  | _, [] => .ok false
  | [], _ :: _ => .ok true
  | x :: xs, y :: ys =>
    match same x y with
    | none => .error .endless
    | some true => lessList same less xs ys
    | some false => less x y

namespace Value

/-- Whether one value comes before another, unless this takes more than a number of steps inwards.
-/
def lessWithin : (fuel : Nat) → Value → Value → Except Disorder Bool
  | _, .scalar a, .scalar b =>
    match a.less? b with
    | some isLess => .ok isLess
    | none => .error .unordered
  | _, .set _ xs, .set _ ys => .ok (xs.length < ys.length && xs.all (Scalar.among ys))
  | fuel + 1, .array mark xs, .array other ys =>
    lessList (sameWithin fuel) (lessWithin fuel) (ownItems mark xs) (ownItems other ys)
  | fuel + 1, .pair _ x y, .pair _ z w =>
    lessList (sameWithin fuel) (lessWithin fuel) [x, y] [z, w]
  | 0, .array _ _, .array _ _ | 0, .pair _ _ _, .pair _ _ _ => .error .endless
  | _, _, _ => .error .unordered

/-- Whether one value comes before another, if they can be ordered. -/
def less (a b : Value) : Except Disorder Bool := lessWithin (a.weight * b.weight + 1) a b

/-- Whether a value counts as true: all but zero, nothing, and what is empty. -/
def isTruthy : Value → Bool
  | .scalar .null => false
  | .scalar (.bool b) => b
  | .scalar (.int n) => n != 0
  | .scalar (.double d) => d.significand != 0
  | .scalar (.string s) => s != ""
  | .scalar (.bytes bytes) => !bytes.isEmpty
  | .array _ items => !items.isEmpty
  | .object _ entries => !entries.isEmpty
  | .set _ members => !members.isEmpty
  | _ => true

end Value

end ServiceDoc
