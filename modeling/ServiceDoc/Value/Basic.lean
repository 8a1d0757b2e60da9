import ServiceDoc.Value.Scalar

/-!
# Values

The values that JSON and YAML documents hold. Mappings keep the order of their entries; their keys
are scalars.

Containers carry marks. A container that holds itself is written with a reference to itself inside.
-/

namespace ServiceDoc

/-- A mapping or a sequence. -/
inductive Shape where
  | sequence
  | mapping
  deriving DecidableEq, Repr

/-- A value of a document. -/
inductive Value where
  /-- A value without parts. -/
  | scalar (value : Scalar)
  | array (mark : Mark) (items : List Value)
  /-- A pair, which is written as a sequence of two. -/
  | pair (mark : Mark) (first second : Value)
  /-- A mapping with its entries in order. -/
  | object (mark : Mark) (entries : List (Scalar × Value))
  /-- A set with its members in order. -/
  | set (mark : Mark) (members : List Scalar)
  /-- The enclosing container of this mark, met again inside itself. -/
  | enclosing (shape : Shape) (mark : Mark)
  deriving Repr, Inhabited

/-- Entries of a mapping. -/
abbrev Entries (α : Type) := List (Scalar × α)

namespace Value

/-- Nothing. -/
abbrev null : Value := .scalar .null

/-- A truth value. -/
abbrev bool (b : Bool) : Value := .scalar (.bool b)

/-- An integer. -/
abbrev int (n : Int) : Value := .scalar (.int n)

/-- A text. -/
abbrev string (s : String) : Value := .scalar (.string s)

/-- An unmarked sequence. -/
abbrev list (items : List Value) : Value := .array [] items

/-- An unmarked mapping. -/
abbrev map (entries : Entries Value) : Value := .object [] entries

/-- Whether a value is the empty text, an empty sequence, an empty mapping or nothing. -/
def isUnset : Value → Bool
  | .scalar .null => true
  | .scalar (.string s) => s == ""
  | .array _ items => items.isEmpty
  | .object _ entries => entries.isEmpty
  | _ => false

/-- The entries of a mapping. -/
def entries? : Value → Option (Entries Value)
  | .object _ entries => some entries
  | _ => none

/-- The text of a text value. -/
def string? : Value → Option String
  | .scalar (.string s) => some s
  | _ => none

/-- Whether copying a value gives the value itself. -/
def isConstant : Value → Bool
  | .scalar value => value.mark.isEmpty
  | _ => false

mutual
/-- How many containers are inside of each other, at most. -/
def depth : Value → Nat
  | .array _ items => depthOfItems items + 1
  | .pair _ first second => max first.depth second.depth + 1
  | .object _ entries => depthOfEntries entries + 1
  | .set _ _ => 1
  | _ => 0

/-- How many containers are inside of each other among the items of a sequence. -/
def depthOfItems : List Value → Nat
  | [] => 0
  | item :: items => max item.depth (depthOfItems items)

/-- How many containers are inside of each other among the values of a mapping. -/
def depthOfEntries : Entries Value → Nat
  | [] => 0
  | (_, value) :: entries => max value.depth (depthOfEntries entries)
end

mutual
/-- Give everything that is marked another mark, by putting a stamp before it. Things that were one
stay one, and differ from those of every other stamp. A pair of constants stays the pair that it
is. -/
def stamped (stamp : Mark) : Value → Value
  | .scalar value => .scalar (value.stamped stamp)
  | .array mark items => .array (restamp stamp mark) (stampedItems stamp items)
  | .pair mark first second =>
    .pair (if first.isConstant && second.isConstant then mark else restamp stamp mark)
      (first.stamped stamp) (second.stamped stamp)
  | .object mark entries => .object (restamp stamp mark) (stampedEntries stamp entries)
  | .set mark members => .set (restamp stamp mark) (members.map (Scalar.stamped stamp))
  | .enclosing shape mark => .enclosing shape (restamp stamp mark)

/-- Stamp the items of a sequence. -/
def stampedItems (stamp : Mark) : List Value → List Value
  | [] => []
  | item :: items => item.stamped stamp :: stampedItems stamp items

/-- Stamp the entries of a mapping. -/
def stampedEntries (stamp : Mark) : Entries Value → Entries Value
  | [] => []
  | (key, value) :: entries =>
    (key.stamped stamp, value.stamped stamp) :: stampedEntries stamp entries
end

mutual
/-- Mark every container by the way from the root to it, after the mark of the root. -/
def markedFrom (root : Mark) : Value → Value
  | .array _ items => .array root (markedItems root 0 items)
  | .object _ entries => .object root (markedEntries root 0 entries)
  | value => value

/-- Mark the containers among the items of a sequence, counting from a position. -/
def markedItems (root : Mark) (position : Nat) : List Value → List Value
  | [] => []
  | item :: items =>
    item.markedFrom (root ++ [position]) :: markedItems root (position + 1) items

/-- Mark the containers among the values of a mapping, counting from a position. -/
def markedEntries (root : Mark) (position : Nat) : Entries Value → Entries Value
  | [] => []
  | (key, value) :: entries =>
    (key, value.markedFrom (root ++ [position])) :: markedEntries root (position + 1) entries
end

end Value

namespace Entries

variable {α : Type}

/-- The value of a key. -/
def get? (entries : Entries α) (key : Scalar) : Option α :=
  (entries.find? fun entry => entry.1 = key).map Prod.snd

/-- Whether a key has a value. -/
def contains (entries : Entries α) (key : Scalar) : Bool :=
  entries.any fun entry => entry.1 = key

/-- Set the value of a key: in place if the key is there, at the end otherwise. -/
def put : Entries α → Scalar → α → Entries α
  | [], key, value => [(key, value)]
  | (other, old) :: rest, key, value =>
    if other = key then (other, value) :: rest else (other, old) :: put rest key value

/-- Set the values of all keys of other entries, one after the other. -/
def putAll (entries others : Entries α) : Entries α :=
  others.foldl (fun result entry => result.put entry.1 entry.2) entries

/-- The keys in order. -/
def keys (entries : Entries α) : List Scalar := entries.map Prod.fst

@[simp] theorem get?_nil (key : Scalar) : get? ([] : Entries α) key = none := rfl

theorem get?_cons (entry : Scalar × α) (entries : Entries α) (key : Scalar) :
    get? (entry :: entries) key = if entry.1 = key then some entry.2 else entries.get? key := by
  by_cases same : entry.1 = key <;> simp [get?, same]

/-- The key that was set has the new value. -/
theorem get?_put_self (entries : Entries α) (key : Scalar) (value : α) :
    (entries.put key value).get? key = some value := by
  induction entries with
  | nil => simp [put, get?_cons]
  | cons entry rest ih =>
      by_cases same : entry.1 = key
      · simp [put, same, get?_cons]
      · simp [put, same, get?_cons, ih]

/-- The other keys keep their values. -/
theorem get?_put_of_ne (entries : Entries α) {key other : Scalar} (value : α)
    (differ : other ≠ key) : (entries.put key value).get? other = entries.get? other := by
  induction entries with
  | nil => simp [put, get?_cons, Ne.symm differ]
  | cons entry rest ih =>
      by_cases same : entry.1 = key
      · simp [put, same, get?_cons, Ne.symm differ]
      · simp only [put, if_neg same, get?_cons, ih]

/-- Setting a key changes the value of that key alone. -/
theorem get?_put (entries : Entries α) (key other : Scalar) (value : α) :
    (entries.put key value).get? other = if other = key then some value else entries.get? other := by
  by_cases same : other = key
  · subst same
    rw [if_pos rfl, get?_put_self]
  · rw [if_neg same, get?_put_of_ne entries value same]

/-- Setting a key keeps the keys that were there, and adds its own at the end if it is new. -/
theorem keys_put (entries : Entries α) (key : Scalar) (value : α) :
    (entries.put key value).keys =
      if key ∈ entries.keys then entries.keys else entries.keys ++ [key] := by
  induction entries with
  | nil => simp [put, keys]
  | cons entry rest ih =>
      by_cases same : entry.1 = key
      · simp [put, same, keys]
      · have ih' := ih
        simp only [keys] at ih'
        by_cases later : key ∈ rest.map Prod.fst <;>
          simp [put, same, keys, ih', later, Ne.symm same]

end Entries

end ServiceDoc
