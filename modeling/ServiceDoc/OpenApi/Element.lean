import ServiceDoc.OpenApi.Kind
import ServiceDoc.Value.Basic

/-!
# Elements

An element of a document: its kind, the contents of the fields that are set, and its extensions.
Fields are set and read by their keys; a field that is not set reads as empty.
-/

namespace ServiceDoc

mutual
/-- An element of an OpenAPI document. -/
inductive Element where
  /-- The kind, the contents of fields, and the extensions of an element. -/
  | mk (kind : Kind) (fields : List (String × Content)) (extensions : List (Scalar × Value))

/-- What a field holds. -/
inductive Content where
  /-- Any value, or the truth value where an element could stand. -/
  | value (value : Value)
  | flag
  /-- A sequence of values. -/
  | list (items : List Value)
  /-- A mapping to values. -/
  | map (entries : List (Scalar × Value))
  | one (element : Element)
  /-- A sequence of elements. -/
  | many (elements : List Element)
  /-- A mapping to elements. -/
  | table (entries : List (Scalar × Element))
end

namespace Element

instance : Inhabited Element := ⟨.mk .schema [] []⟩

/-- The kind of an element. -/
def kind : Element → Kind
  | .mk kind _ _ => kind

/-- The contents of the fields that are set. -/
def fields : Element → List (String × Content)
  | .mk _ fields _ => fields

/-- The extensions. -/
def extensions : Element → Entries Value
  | .mk _ _ extensions => extensions

/-- An element without anything. -/
def empty (kind : Kind) : Element := .mk kind [] []

/-- What the field of a key holds. -/
def get? (element : Element) (key : String) : Option Content := element.fields.lookup key

/-- Set what the field of a key holds, in place if it is set already. -/
def setField : List (String × Content) → String → Content → List (String × Content)
  | [], key, content => [(key, content)]
  | (other, old) :: rest, key, content =>
    if other = key then (key, content) :: rest else (other, old) :: setField rest key content

/-- Set what the field of a key holds. -/
def set (element : Element) (key : String) (content : Content) : Element :=
  .mk element.kind (setField element.fields key content) element.extensions

/-- Leave a field unset. -/
def erase (element : Element) (key : String) : Element :=
  .mk element.kind (element.fields.filter fun field => field.1 ≠ key) element.extensions

/-- Replace the extensions. -/
def withExtensions (element : Element) (extensions : Entries Value) : Element :=
  .mk element.kind element.fields extensions

/-- Set an extension. -/
def putExtension (element : Element) (key : Scalar) (value : Value) : Element :=
  element.withExtensions (element.extensions.put key value)

/-- The value of a field. -/
def value? (element : Element) (key : String) : Option Value :=
  match element.get? key with
  | some (.value value) => some value
  | _ => none

/-- Whether a flag is set. -/
def flag (element : Element) (key : String) : Bool :=
  match element.get? key with
  | some .flag => true
  | _ => false

/-- The sequence of values of a field. -/
def list (element : Element) (key : String) : List Value :=
  match element.get? key with
  | some (.list items) => items
  | _ => []

/-- The mapping to values of a field. -/
def map (element : Element) (key : String) : Entries Value :=
  match element.get? key with
  | some (.map entries) => entries
  | _ => []

/-- The element of a field. -/
def one? (element : Element) (key : String) : Option Element :=
  match element.get? key with
  | some (.one inner) => some inner
  | _ => none

/-- The sequence of elements of a field. -/
def many (element : Element) (key : String) : List Element :=
  match element.get? key with
  | some (.many elements) => elements
  | _ => []

/-- The mapping to elements of a field. -/
def table (element : Element) (key : String) : Entries Element :=
  match element.get? key with
  | some (.table entries) => entries
  | _ => []

/-- Set the text of a field. -/
def setText (element : Element) (key text : String) : Element :=
  element.set key (.value (.string text))

/-- Set or clear a flag. -/
def setFlag (element : Element) (key : String) (set : Bool) : Element :=
  if set then element.set key .flag else element.erase key

/-- Set a field that holds an element, or leave it as it is. -/
def setOne? (element : Element) (key : String) (inner : Option Element) : Element :=
  match inner with
  | some inner => element.set key (.one inner)
  | none => element

theorem lookup_setField_self (fields : List (String × Content)) (key : String)
    (content : Content) : (setField fields key content).lookup key = some content := by
  induction fields with
  | nil => simp [setField]
  | cons field rest ih =>
      obtain ⟨name, old⟩ := field
      by_cases same : name = key
      · simp [setField, same]
      · simp [setField, same, List.lookup_cons, beq_eq_false_iff_ne.mpr (Ne.symm same), ih]

theorem lookup_setField_of_ne (fields : List (String × Content)) {key other : String}
    (content : Content) (differ : other ≠ key) :
    (setField fields key content).lookup other = fields.lookup other := by
  induction fields with
  | nil => simp [setField, List.lookup_cons, beq_eq_false_iff_ne.mpr differ]
  | cons field rest ih =>
      obtain ⟨name, old⟩ := field
      by_cases same : name = key
      · subst same
        simp [setField, List.lookup_cons, beq_eq_false_iff_ne.mpr differ]
      · simp only [setField, if_neg same, List.lookup_cons, ih]

/-- The field that was set holds the new content. -/
@[simp] theorem get?_set_self (element : Element) (key : String) (content : Content) :
    (element.set key content).get? key = some content :=
  lookup_setField_self _ _ _

/-- The other fields hold what they held. -/
theorem get?_set_of_ne (element : Element) {key other : String} (content : Content)
    (differ : other ≠ key) : (element.set key content).get? other = element.get? other :=
  lookup_setField_of_ne _ _ differ

/-- Setting a field changes what that field holds, and no other. -/
theorem get?_set (element : Element) (key other : String) (content : Content) :
    (element.set key content).get? other =
      if other = key then some content else element.get? other := by
  by_cases same : other = key
  · subst same
    rw [if_pos rfl, get?_set_self]
  · rw [if_neg same, get?_set_of_ne element content same]

@[simp] theorem kind_set (element : Element) (key : String) (content : Content) :
    (element.set key content).kind = element.kind := rfl

@[simp] theorem extensions_set (element : Element) (key : String) (content : Content) :
    (element.set key content).extensions = element.extensions := rfl

end Element

end ServiceDoc
