import ServiceDoc.Value.Basic

/-!
# Parts of values

The part of a mapping under a key, read as what is expected there. A part that is missing, or is
nothing, or is something else, reads as the empty text, zero, false or the empty list.
-/

namespace ServiceDoc.Value

/-- The part under a key, unless it is nothing. -/
def at? (value : Value) (key : String) : Option Value :=
  match value with
  | .object _ entries => (Entries.get? entries (.string key)).filter fun
    | .scalar .null => false
    | _ => true
  | _ => none

/-- The items of a sequence. -/
def items : Value → List Value
  | .array _ values => values
  | _ => []

/-- The integer of an integer value. -/
def integer? : Value → Option Int
  | .scalar (.int n) => some n
  | _ => none

/-- The truth value of a truth value. -/
def truth? : Value → Option Bool
  | .scalar (.bool b) => some b
  | _ => none

/-- The text of a value. -/
def text (value : Value) : String := value.string?.getD ""

/-- The text under a key, if there is one. -/
def text? (value : Value) (key : String) : Option String := (value.at? key).bind string?

/-- The text under a key. -/
def textAt (value : Value) (key : String) : String := (value.text? key).getD ""

/-- The items under a key. -/
def listAt (value : Value) (key : String) : List Value := ((value.at? key).map items).getD []

/-- The texts under a key. -/
def textsAt (value : Value) (key : String) : List String := (value.listAt key).map text

/-- The integers under a key. -/
def intsAt (value : Value) (key : String) : List Int := (value.listAt key).filterMap integer?

/-- The integer under a key. -/
def intAt (value : Value) (key : String) : Int := ((value.at? key).bind integer?).getD 0

/-- The natural number under a key, if there is one. -/
def natAt? (value : Value) (key : String) : Option Nat :=
  ((value.at? key).bind integer?).bind Int.toNat?

/-- The truth value under a key. -/
def boolAt (value : Value) (key : String) : Bool := ((value.at? key).bind truth?).getD false

/-- The part under a key is smaller than the mapping. -/
theorem sizeOf_at? {value part : Value} {key : String} (found : value.at? key = some part) :
    sizeOf part < sizeOf value := by
  cases value with
  | object mark entries =>
      simp only [at?, Option.filter_eq_some_iff, Entries.get?, Option.map_eq_some_iff] at found
      obtain ⟨⟨entry, isFirst, rfl⟩, _⟩ := found
      have entrySize := List.sizeOf_lt_of_mem (List.mem_of_find?_eq_some isFirst)
      obtain ⟨name, part⟩ := entry
      simp only [Prod.mk.sizeOf_spec, object.sizeOf_spec] at entrySize ⊢
      omega
  | scalar _ => simp [at?] at found
  | array _ _ => simp [at?] at found
  | pair _ _ _ => simp [at?] at found
  | set _ _ => simp [at?] at found
  | enclosing _ _ => simp [at?] at found

/-- The items under a key are smaller than the mapping. -/
theorem sizeOf_listAt {value item : Value} {key : String} (member : item ∈ value.listAt key) :
    sizeOf item < sizeOf value := by
  unfold listAt at member
  cases found : value.at? key with
  | none => simp [found] at member
  | some part =>
      have partSize := sizeOf_at? found
      cases part with
      | array mark values =>
          have itemSize : sizeOf item < sizeOf values := by
            apply List.sizeOf_lt_of_mem
            simpa [found, items] using member
          simp only [array.sizeOf_spec] at partSize
          omega
      | scalar _ => simp [found, items] at member
      | object _ _ => simp [found, items] at member
      | pair _ _ _ => simp [found, items] at member
      | set _ _ => simp [found, items] at member
      | enclosing _ _ => simp [found, items] at member

end ServiceDoc.Value
