import ServiceDoc.OpenApi.Element

/-!
# Fields of elements

Setting a field twice, or to what it holds.
-/

namespace ServiceDoc

namespace Element

theorem setField_setField (fields : List (String × Content)) (key : String)
    (first second : Content) :
    setField (setField fields key first) key second = setField fields key second := by
  induction fields with
  | nil => simp [setField]
  | cons field rest ih =>
      obtain ⟨other, old⟩ := field
      by_cases same : other = key
      · simp [setField, same]
      · simp [setField, same, ih]

theorem setField_of_lookup {fields : List (String × Content)} {key : String} {content : Content}
    (holds : fields.lookup key = some content) : setField fields key content = fields := by
  induction fields with
  | nil => cases holds
  | cons field rest ih =>
      obtain ⟨other, old⟩ := field
      by_cases same : other = key
      · subst same
        rw [List.lookup_cons_self, Option.some.injEq] at holds
        rw [setField, if_pos rfl, holds]
      · rw [List.lookup_cons, beq_eq_false_iff_ne.mpr (Ne.symm same)] at holds
        rw [setField, if_neg same, ih holds]

theorem setField_of_unset {fields : List (String × Content)} {key : String} {content : Content}
    (unset : fields.lookup key = none) :
    setField fields key content = fields ++ [(key, content)] := by
  induction fields with
  | nil => rfl
  | cons field rest ih =>
      obtain ⟨other, old⟩ := field
      by_cases same : other = key
      · rw [same, List.lookup_cons_self] at unset
        cases unset
      · rw [List.lookup_cons, beq_eq_false_iff_ne.mpr (Ne.symm same)] at unset
        rw [setField, if_neg same, ih unset]
        rfl

/-- What a field was set to first is forgotten. -/
@[simp] theorem set_set (element : Element) (key : String) (first second : Content) :
    (element.set key first).set key second = element.set key second :=
  congrArg (mk element.kind · element.extensions) (setField_setField _ _ _ _)

/-- Setting a field to what it holds changes nothing. -/
theorem set_of_get? {element : Element} {key : String} {content : Content}
    (holds : element.get? key = some content) : element.set key content = element := by
  obtain ⟨kind, fields, extensions⟩ := element
  exact congrArg (mk kind · extensions) (setField_of_lookup holds)

@[simp] theorem many_set_self (element : Element) (key : String) (elements : List Element) :
    (element.set key (.many elements)).many key = elements := by
  unfold many
  rw [get?_set_self]

theorem many_set_of_ne (element : Element) {key other : String} (content : Content)
    (differ : other ≠ key) : (element.set key content).many other = element.many other := by
  unfold many
  rw [get?_set_of_ne element content differ]

theorem table_of_get? {element : Element} {key : String} {entries : Entries Element}
    (holds : element.get? key = some (.table entries)) : element.table key = entries := by
  unfold table
  rw [holds]

theorem table_set_of_ne (element : Element) {key other : String} (content : Content)
    (differ : other ≠ key) : (element.set key content).table other = element.table other := by
  unfold table
  rw [get?_set_of_ne element content differ]

theorem value?_set_self (element : Element) (key : String) (value : Value) :
    (element.set key (.value value)).value? key = some value := by
  unfold value?
  rw [get?_set_self]

end Element

end ServiceDoc
