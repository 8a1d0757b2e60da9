import ServiceDoc.Proofs.Value.Entries
import ServiceDoc.Schema.WellKnown

/-!
# References in elements

The references that occur anywhere in an element, and elements all of whose references name a
component schema of a given set. Building an element up from such parts gives such an element.
-/

namespace ServiceDoc

mutual
/-- The references in an element, itself included. -/
def Element.references : Element → List Element
  | .mk kind fields extensions =>
    if kind = .reference then .mk kind fields extensions :: referencesOfFields fields
    else referencesOfFields fields

/-- The references in the contents of fields. -/
def referencesOfFields : List (String × Content) → List Element
  | [] => []
  | (_, content) :: fields => referencesOfContent content ++ referencesOfFields fields

/-- The references in what a field holds. -/
def referencesOfContent : Content → List Element
  | .one element => element.references
  | .many elements => referencesOfMany elements
  | .table entries => referencesOfTable entries
  | _ => []

/-- The references in a sequence of elements. -/
def referencesOfMany : List Element → List Element
  | [] => []
  | element :: elements => element.references ++ referencesOfMany elements

/-- The references in a mapping to elements. -/
def referencesOfTable : List (Scalar × Element) → List Element
  | [] => []
  | (_, element) :: entries => element.references ++ referencesOfTable entries
end

/-- A reference names a component schema of a set. -/
def Element.RefersInto (names : String → Prop) (reference : Element) : Prop :=
  ∃ name, Schema.referenceName? reference = some name ∧ names name

/-- Every reference in an element names a component schema of a set. -/
def Element.ResolvesIn (names : String → Prop) (element : Element) : Prop :=
  ∀ reference ∈ element.references, reference.RefersInto names

/-- Every reference in what a field holds names a component schema of a set. -/
def Content.ResolvesIn (names : String → Prop) (content : Content) : Prop :=
  ∀ reference ∈ referencesOfContent content, reference.RefersInto names

variable {names : String → Prop}

theorem mem_referencesOfFields {fields : List (String × Content)} {reference : Element} :
    reference ∈ referencesOfFields fields ↔
      ∃ field ∈ fields, reference ∈ referencesOfContent field.2 := by
  induction fields with
  | nil => simp [referencesOfFields]
  | cons field rest ih => simp [referencesOfFields, ih]

theorem mem_referencesOfMany {elements : List Element} {reference : Element} :
    reference ∈ referencesOfMany elements ↔
      ∃ element ∈ elements, reference ∈ element.references := by
  induction elements with
  | nil => simp [referencesOfMany]
  | cons element rest ih => simp [referencesOfMany, ih]

theorem mem_referencesOfTable {entries : Entries Element} {reference : Element} :
    reference ∈ referencesOfTable entries ↔
      ∃ entry ∈ entries, reference ∈ entry.2.references := by
  induction entries with
  | nil => simp [referencesOfTable]
  | cons entry rest ih => simp [referencesOfTable, ih]

/-! ## Contents -/

namespace Content

@[simp] theorem resolvesIn_value {value : Value} : (Content.value value).ResolvesIn names :=
  fun _ member => (List.not_mem_nil member).elim

@[simp] theorem resolvesIn_flag : Content.flag.ResolvesIn names :=
  fun _ member => (List.not_mem_nil member).elim

@[simp] theorem resolvesIn_list {items : List Value} : (Content.list items).ResolvesIn names :=
  fun _ member => (List.not_mem_nil member).elim

@[simp] theorem resolvesIn_one {element : Element} :
    (Content.one element).ResolvesIn names ↔ element.ResolvesIn names :=
  Iff.rfl

@[simp] theorem resolvesIn_many {elements : List Element} :
    (Content.many elements).ResolvesIn names ↔
      ∀ element ∈ elements, element.ResolvesIn names := by
  simp only [ResolvesIn, Element.ResolvesIn, referencesOfContent, mem_referencesOfMany]
  constructor
  · intro all element member reference inner
    exact all reference ⟨element, member, inner⟩
  · rintro all reference ⟨element, member, inner⟩
    exact all element member reference inner

@[simp] theorem resolvesIn_table {entries : Entries Element} :
    (Content.table entries).ResolvesIn names ↔
      ∀ entry ∈ entries, entry.2.ResolvesIn names := by
  simp only [ResolvesIn, Element.ResolvesIn, referencesOfContent, mem_referencesOfTable]
  constructor
  · intro all entry member reference inner
    exact all reference ⟨entry, member, inner⟩
  · rintro all reference ⟨entry, member, inner⟩
    exact all entry member reference inner

end Content

/-- What is set in a mapping of elements that resolve keeps them so. -/
theorem Entries.forall_put {entries : Entries Element} {holds : Element → Prop} {key : Scalar}
    {element : Element} (all : ∀ entry ∈ entries, holds entry.2) (new : holds element) :
    ∀ entry ∈ entries.put key element, holds entry.2 := by
  induction entries with
  | nil => simpa [put] using new
  | cons entry rest ih =>
      obtain ⟨other, old⟩ := entry
      have later := ih fun entry member => all entry (.tail _ member)
      by_cases same : other = key
      · simp only [put, same, if_true, List.mem_cons, forall_eq_or_imp]
        exact ⟨new, fun entry member => all entry (.tail _ member)⟩
      · simp only [put, same, if_false, List.mem_cons, forall_eq_or_imp]
        exact ⟨all (other, old) (.head _), later⟩

/-! ## Elements -/

namespace Element

/-- A field that is set stands beside those that were there. -/
theorem mem_setField {fields : List (String × Content)} {key : String} {content : Content}
    {field : String × Content} (member : field ∈ setField fields key content) :
    field ∈ fields ∨ field = (key, content) := by
  induction fields with
  | nil => exact .inr (List.mem_singleton.mp member)
  | cons entry rest ih =>
      obtain ⟨other, old⟩ := entry
      by_cases same : other = key
      · rw [setField, if_pos same] at member
        rcases List.mem_cons.mp member with rfl | member
        · exact .inr rfl
        · exact .inl (.tail _ member)
      · rw [setField, if_neg same] at member
        rcases List.mem_cons.mp member with rfl | member
        · exact .inl (.head _)
        · exact (ih member).imp_left (.tail _)

/-- Leaving a field unset leaves the others as they are. -/
theorem get?_erase_of_ne (element : Element) {key other : String} (differ : other ≠ key) :
    (element.erase key).get? other = element.get? other := by
  obtain ⟨kind, fields, extensions⟩ := element
  change (fields.filter fun field => field.1 ≠ key).lookup other = fields.lookup other
  induction fields with
  | nil => rfl
  | cons field rest ih =>
      obtain ⟨name, content⟩ := field
      by_cases same : name = key
      · have unlike : (other == name) = false := beq_eq_false_iff_ne.mpr (same ▸ differ)
        rw [List.filter_cons_of_neg (by simpa using same), ih, List.lookup_cons, unlike]
      · rw [List.filter_cons_of_pos (by simpa using same), List.lookup_cons, List.lookup_cons, ih]

theorem get?_erase_self (element : Element) (key : String) :
    (element.erase key).get? key = none := by
  unfold get? erase
  rw [List.lookup_eq_none_iff]
  intro field member
  exact bne_iff_ne.mpr (Ne.symm (of_decide_eq_true (List.mem_filter.mp member).2))

/-- A flag that is cleared is unset. -/
theorem get?_setFlag (element : Element) (key other : String) (set : Bool) :
    (element.setFlag key set).get? other =
      if other = key then if set then some .flag else none else element.get? other := by
  unfold setFlag
  cases set with
  | true => exact get?_set element key other .flag
  | false =>
      by_cases same : other = key
      · subst same
        simpa using get?_erase_self element other
      · simpa [same] using get?_erase_of_ne element same

theorem get?_setOne? (element : Element) (key other : String) (inner : Option Element) :
    (element.setOne? key inner).get? other =
      if other = key then (inner.map Content.one).or (element.get? key)
      else element.get? other := by
  cases inner with
  | some inner => exact get?_set element key other (.one inner)
  | none =>
      by_cases same : other = key
      · simp [setOne?, same]
      · simp [setOne?, same]

theorem mem_of_get? {element : Element} {key : String} {content : Content}
    (found : element.get? key = some content) : (key, content) ∈ element.fields :=
  mem_of_lookup found

/-- An element resolves if the contents of its fields do, and itself if it is a reference. -/
theorem resolvesIn_iff {element : Element} :
    element.ResolvesIn names ↔ (element.kind = .reference → element.RefersInto names) ∧
      ∀ field ∈ element.fields, field.2.ResolvesIn names := by
  obtain ⟨kind, fields, extensions⟩ := element
  have inside : (∀ reference ∈ referencesOfFields fields, reference.RefersInto names) ↔
      ∀ field ∈ fields, field.2.ResolvesIn names := by
    simp only [mem_referencesOfFields, Content.ResolvesIn]
    constructor
    · intro all field member reference inner
      exact all reference ⟨field, member, inner⟩
    · rintro all reference ⟨field, member, inner⟩
      exact all field member reference inner
  simp only [ResolvesIn, references, Element.kind, Element.fields, ← inside]
  by_cases self : kind = .reference
  · simp [self]
  · simp [self]

theorem ResolvesIn.field {element : Element} (resolves : element.ResolvesIn names)
    {field : String × Content} (member : field ∈ element.fields) : field.2.ResolvesIn names :=
  (resolvesIn_iff.mp resolves).2 field member

theorem ResolvesIn.get? {element : Element} (resolves : element.ResolvesIn names) {key : String}
    {content : Content} (found : element.get? key = some content) : content.ResolvesIn names :=
  resolves.field (mem_of_get? found)

theorem ResolvesIn.one? {element : Element} (resolves : element.ResolvesIn names) {key : String}
    {inner : Element} (found : element.one? key = some inner) : inner.ResolvesIn names := by
  unfold Element.one? at found
  split at found
  next content => exact Option.some.inj found ▸ Content.resolvesIn_one.mp (resolves.get? content)
  next => contradiction

theorem ResolvesIn.many {element : Element} (resolves : element.ResolvesIn names) (key : String) :
    ∀ inner ∈ element.many key, inner.ResolvesIn names := by
  unfold Element.many
  split
  next content => exact Content.resolvesIn_many.mp (resolves.get? content)
  next => exact fun _ member => (List.not_mem_nil member).elim

theorem ResolvesIn.table {element : Element} (resolves : element.ResolvesIn names)
    (key : String) : ∀ entry ∈ element.table key, entry.2.ResolvesIn names := by
  unfold Element.table
  split
  next content => exact Content.resolvesIn_table.mp (resolves.get? content)
  next => exact fun _ member => (List.not_mem_nil member).elim

/-- A larger set of names resolves what a smaller one does. -/
theorem ResolvesIn.mono {others : String → Prop} (wider : ∀ name, names name → others name)
    {element : Element} (resolves : element.ResolvesIn names) : element.ResolvesIn others := by
  intro reference member
  obtain ⟨name, named, among⟩ := resolves reference member
  exact ⟨name, named, wider name among⟩

theorem resolvesIn_empty {kind : Kind} (plain : kind ≠ .reference) :
    (empty kind).ResolvesIn names :=
  resolvesIn_iff.mpr
    ⟨fun same => (plain same).elim, fun _ member => (List.not_mem_nil member).elim⟩

/-- What a reference names depends on one field alone. -/
theorem referenceName?_congr {element other : Element}
    (same : element.get? "$ref" = other.get? "$ref") :
    Schema.referenceName? element = Schema.referenceName? other := by
  unfold Schema.referenceName? Element.value?
  rw [same]

/-- An element that resolves still does when a field is set to what resolves, unless it is the field
that says what a reference names. -/
theorem ResolvesIn.set {element : Element} (resolves : element.ResolvesIn names) {key : String}
    (other : "$ref" ≠ key) {content : Content} (inner : content.ResolvesIn names) :
    (element.set key content).ResolvesIn names := by
  rw [resolvesIn_iff] at resolves ⊢
  refine ⟨fun reference => ?_, fun field member => ?_⟩
  · obtain ⟨name, named, among⟩ := resolves.1 reference
    exact ⟨name, (referenceName?_congr (get?_set_of_ne element content other)).trans named, among⟩
  · rcases mem_setField member with member | rfl
    · exact resolves.2 field member
    · exact inner

theorem ResolvesIn.setText {element : Element} (resolves : element.ResolvesIn names)
    {key : String} (other : "$ref" ≠ key) (text : String) :
    (element.setText key text).ResolvesIn names :=
  resolves.set other Content.resolvesIn_value

theorem ResolvesIn.erase {element : Element} (resolves : element.ResolvesIn names)
    {key : String} (other : "$ref" ≠ key) : (element.erase key).ResolvesIn names := by
  rw [resolvesIn_iff] at resolves ⊢
  refine ⟨fun reference => ?_, fun field member => resolves.2 field (List.mem_filter.mp member).1⟩
  obtain ⟨name, named, among⟩ := resolves.1 reference
  exact ⟨name, (referenceName?_congr (get?_erase_of_ne element other)).trans named, among⟩

theorem ResolvesIn.setFlag {element : Element} (resolves : element.ResolvesIn names)
    {key : String} (other : "$ref" ≠ key) (set : Bool) :
    (element.setFlag key set).ResolvesIn names := by
  cases set with
  | false => exact resolves.erase other
  | true => exact resolves.set other Content.resolvesIn_flag

theorem ResolvesIn.setOne? {element : Element} (resolves : element.ResolvesIn names)
    {key : String} (other : "$ref" ≠ key) {inner : Option Element}
    (inside : ∀ element ∈ inner, element.ResolvesIn names) :
    (element.setOne? key inner).ResolvesIn names := by
  cases inner with
  | none => exact resolves
  | some inner => exact resolves.set other (Content.resolvesIn_one.mpr (inside inner rfl))

theorem ResolvesIn.withExtensions {element : Element} (resolves : element.ResolvesIn names)
    (extensions : Entries Value) : (element.withExtensions extensions).ResolvesIn names := by
  rw [resolvesIn_iff] at resolves ⊢
  exact resolves

end Element

/-! ## References -/

namespace Schema

/-- A reference to a component schema names that schema. -/
theorem referenceName?_reference (name : String) :
    referenceName? (reference name) = some name := by
  have text : (reference name).value? "$ref" = some (.string (referencePrefix ++ name)) := rfl
  have starts : referencePrefix.toList.isPrefixOf (referencePrefix ++ name).toList = true := by
    rw [String.toList_append, List.isPrefixOf_iff_prefix]
    exact List.prefix_append _ _
  unfold referenceName?
  simp only [text, Option.bind_eq_bind, Option.bind_some, Value.string?, starts, if_true]
  rw [String.toList_append, ← String.length_toList, List.drop_left, String.ofList_toList]

theorem resolvesIn_reference {name : String} (among : names name) :
    (reference name).ResolvesIn names := by
  intro member inside
  have same : member = reference name := by
    simpa [Element.references, reference, Element.setText, Element.set, Element.empty,
      Element.kind, Element.fields, Element.setField, referencesOfFields,
      referencesOfContent] using inside
  exact same ▸ ⟨name, referenceName?_reference name, among⟩

end Schema

end ServiceDoc
