import ServiceDoc.Proofs.OpenApi.Dump
import ServiceDoc.Proofs.Value.Sorting

/-!
# What is loaded

Loading an element goes over the entries of a mapping. What becomes of an entry depends on the role
of its key, so that everything that is loaded stands under a key that was there.
-/

namespace ServiceDoc

namespace Kind

variable {kind : Kind} {key : Scalar} {field : Field}

theorem role_eq_extension (role : kind.role key = .ok .extension) : key.isExtension = true := by
  cases key with
  | string name =>
      rw [Kind.role] at role
      split at role
      next extension => exact extension
      next => split at role <;> cases role
  | surrogates codes =>
      rw [Kind.role] at role
      by_cases extension : codes.take 2 = [120, 45]
      · exact decide_eq_true extension
      · rw [if_neg extension] at role
        cases role
  | _ => cases role

theorem role_eq_field (role : kind.role key = .ok (.field field)) :
    field ∈ kind.fields ∧ key = .string field.key := by
  cases key with
  | string name =>
      rw [Kind.role] at role
      split at role
      next => cases role
      next =>
        split at role
        next found =>
          obtain rfl := EntryRole.field.inj (Except.ok.inj role)
          obtain ⟨known, same⟩ := field?_eq_some_iff.mp found
          exact ⟨known, congrArg Scalar.string same.symm⟩
        next => cases role
  | surrogates codes =>
      rw [Kind.role] at role
      split at role <;> cases role
  | _ => contradiction

theorem role_eq_unknown (role : kind.role key = .ok .unknown) :
    key.isExtension = false ∧ ∀ field ∈ kind.fields, key ≠ .string field.key := by
  cases key with
  | string name =>
      rw [Kind.role] at role
      split at role
      next => cases role
      next plain =>
        split at role
        next => cases role
        next missing =>
          refine ⟨Bool.eq_false_iff.mpr plain, fun field known same => ?_⟩
          rw [field?_eq_some_iff.mpr ⟨known, (Scalar.string.inj same).symm⟩] at missing
          contradiction
  | surrogates codes =>
      rw [Kind.role] at role
      split at role
      next => cases role
      next plain => exact ⟨decide_eq_false plain, fun _ _ => Scalar.noConfusion⟩
  | _ => cases role

end Kind

theorem Reported.outcome_bind_eq_ok {ε α β : Type} {first : Reported ε α}
    {next : α → Reported ε β} {result : β} : (first >>= next).outcome = .ok result ↔
      ∃ value, first.outcome = .ok value ∧ (next value).outcome = .ok result := by
  rw [Reported.outcome_bind, bind_eq_ok]

/-- What an entry adds to the parts that are loaded after it. -/
inductive EntryAdds (again : ContentLoader) (around : Value.Surroundings) (kind : Kind)
    (key : Scalar) (value : Value) (rest : Parts) : Parts → Prop
  | extension (role : kind.role key = .ok .extension) :
      EntryAdds again around kind key value rest
        { rest with extensions := (key, value.closed around) :: rest.extensions }
  | unknown (role : kind.role key = .ok .unknown) : EntryAdds again around kind key value rest rest
  | field (field : Field) (content : Option Content) (role : kind.role key = .ok (.field field))
      (loads : (loadContent again around (Text.codes field.key) field.shape value).outcome =
        .ok content) :
      EntryAdds again around kind key value rest
        { rest with fields := (content.map (field.key, ·)).toList ++ rest.fields }

section

variable {again : ContentLoader} {around : Value.Surroundings} {kind : Kind} {key : Scalar}
  {value : Value} {entries : Entries Value} {parts : Parts}

theorem loadParts_cons
    (loads : (loadParts again around kind ((key, value) :: entries)).outcome = .ok parts) :
    ∃ rest, (loadParts again around kind entries).outcome = .ok rest ∧
      EntryAdds again around kind key value rest parts := by
  rw [loadParts] at loads
  obtain ⟨role, known, loads⟩ := Reported.outcome_bind_eq_ok.mp loads
  change kind.role key = .ok role at known
  cases role with
  | extension =>
      obtain ⟨rest, later, given⟩ := Reported.outcome_bind_eq_ok.mp loads
      obtain rfl := Except.ok.inj given
      exact ⟨rest, later, .extension known⟩
  | unknown => exact ⟨parts, loads, .unknown known⟩
  | field field =>
      obtain ⟨content, inner, loads⟩ := Reported.outcome_bind_eq_ok.mp loads
      obtain ⟨rest, later, given⟩ := Reported.outcome_bind_eq_ok.mp loads
      have adds : EntryAdds again around kind key value rest _ :=
        .field field content known inner
      refine ⟨rest, later, ?_⟩
      cases content with
      | none => exact Except.ok.inj given ▸ adds
      | some content => exact Except.ok.inj given ▸ adds

/-- The fields that are loaded stand under keys that were there, in this order. -/
theorem keys_of_loadParts (loads : (loadParts again around kind entries).outcome = .ok parts) :
    (parts.fields.map fun field => Scalar.string field.1).Sublist entries.keys := by
  induction entries generalizing parts with
  | nil =>
      obtain rfl := Except.ok.inj loads
      exact .slnil
  | cons entry rest ih =>
      obtain ⟨key, value⟩ := entry
      obtain ⟨others, later, adds⟩ := loadParts_cons loads
      cases adds with
      | extension => exact (ih later).cons key
      | unknown => exact (ih later).cons key
      | field field content role =>
          obtain ⟨-, rfl⟩ := Kind.role_eq_field role
          cases content with
          | none => exact (ih later).cons _
          | some content => exact (ih later).cons_cons _

/-- The extensions that are loaded are those that were there, each on its own. -/
theorem extensions_of_loadParts
    (loads : (loadParts again around kind entries).outcome = .ok parts) :
    parts.extensions = entries.extended.map (Prod.map id (Value.closed around)) := by
  induction entries generalizing parts with
  | nil =>
      obtain rfl := Except.ok.inj loads
      rfl
  | cons entry rest ih =>
      obtain ⟨key, value⟩ := entry
      obtain ⟨others, later, adds⟩ := loadParts_cons loads
      have ih := ih later
      cases adds with
      | extension role =>
          rw [Entries.extended_cons, if_pos (Kind.role_eq_extension role), List.map_cons, ← ih]
          rfl
      | unknown role =>
          rw [Entries.extended_cons, (Kind.role_eq_unknown role).1, if_neg Bool.false_ne_true, ih]
      | field field content role =>
          obtain ⟨known, rfl⟩ := Kind.role_eq_field role
          rw [Entries.extended_cons, Kind.isExtension_of_mem_fields known,
            if_neg Bool.false_ne_true]
          exact ih

theorem keys_extensions_of_loadParts
    (loads : (loadParts again around kind entries).outcome = .ok parts) :
    parts.extensions.keys = entries.extended.keys := by
  rw [extensions_of_loadParts loads, Entries.keys, List.map_map]
  rfl

/-- Loaded parts make an element in which nothing is set twice. -/
theorem isRegular_of_loadParts (distinct : entries.keys.Nodup)
    (loads : (loadParts again around kind entries).outcome = .ok parts) :
    (Element.mk kind parts.fields parts.extensions).IsRegular where
  distinct := by
    refine List.Nodup.of_map Scalar.string ?_
    rw [List.map_map]
    exact distinct.sublist (keys_of_loadParts loads)
  extensions_distinct := by
    change parts.extensions.keys.Nodup
    rw [keys_extensions_of_loadParts loads]
    exact Entries.nodup_keys_extended distinct
  extended key member := by
    change key ∈ parts.extensions.keys at member
    rw [keys_extensions_of_loadParts loads] at member
    exact (Entries.mem_keys_extended.mp member).2

/-- A field that is loaded was loaded from an entry of its key. -/
theorem exists_of_mem_fields
    (loads : (loadParts again around kind entries).outcome = .ok parts) :
    ∀ entry ∈ parts.fields, ∃ field ∈ kind.fields, field.key = entry.1 ∧
      ∃ value, (.string field.key, value) ∈ entries ∧
        (loadContent again around (Text.codes field.key) field.shape value).outcome =
          .ok (some entry.2) := by
  induction entries generalizing parts with
  | nil =>
      obtain rfl := Except.ok.inj loads
      exact fun _ member => (List.not_mem_nil member).elim
  | cons given rest ih =>
      obtain ⟨key, value⟩ := given
      obtain ⟨others, later, adds⟩ := loadParts_cons loads
      have earlier : ∀ entry ∈ others.fields, ∃ field ∈ kind.fields, field.key = entry.1 ∧
          ∃ inner, (.string field.key, inner) ∈ (key, value) :: rest ∧
            (loadContent again around (Text.codes field.key) field.shape inner).outcome =
              .ok (some entry.2) := by
        intro entry member
        obtain ⟨field, known, same, inner, inside, loaded⟩ := ih later entry member
        exact ⟨field, known, same, inner, .tail _ inside, loaded⟩
      cases adds with
      | extension => exact earlier
      | unknown => exact earlier
      | field field content role inner =>
          obtain ⟨known, rfl⟩ := Kind.role_eq_field role
          intro entry member
          rcases List.mem_append.mp member with new | old
          · obtain ⟨content, rfl, rfl⟩ := Option.map_eq_some_iff.mp (Option.mem_toList.mp new)
            exact ⟨field, known, rfl, value, .head _, inner⟩
          · exact earlier entry old

/-- What fields hold is loaded from what stood under their keys. -/
theorem forall_fields_of_loadParts {holds : Field → Content → Prop}
    (each : ∀ field ∈ kind.fields, ∀ value content,
      (loadContent again around (Text.codes field.key) field.shape value).outcome =
        .ok (some content) → holds field content)
    (loads : (loadParts again around kind entries).outcome = .ok parts) :
    ∀ entry ∈ parts.fields, ∃ field ∈ kind.fields, field.key = entry.1 ∧ holds field entry.2 := by
  intro entry member
  obtain ⟨field, known, same, value, -, loaded⟩ := exists_of_mem_fields loads entry member
  exact ⟨field, known, same, each field known value entry.2 loaded⟩

end

/-! ## Elements in the place of a kind -/

/-- An element of a kind can stand in the place of another kind. -/
def Kind.Admits (kind other : Kind) : Prop := other = kind ∨ kind = .schema ∧ other = .reference

theorem Kind.admits_loadedFrom (kind : Kind) (entries : Entries Value) :
    kind.Admits (kind.loadedFrom entries) := by
  unfold loadedFrom
  split
  next schema => exact .inr ⟨schema.1, rfl⟩
  next => exact .inl rfl

theorem Element.kind_create (kind : Kind) (fields : List (String × Content))
    (extensions : Entries Value) : (create kind fields extensions).kind = kind := by
  unfold create
  split <;> rfl

/-- A field that takes an element holds one that can stand in its place. -/
def ContentLoader.LoadsOnes (loader : ContentLoader) : Prop :=
  ∀ place kind value content, (loader place (.one kind) value).outcome = .ok content →
    ∃ element, content = some (.one element) ∧ kind.Admits element.kind

theorem outcome_misplaced_ne {α : Type} {place : List Nat} {expected : Expected} {value : Value}
    {result : α} : (misplaced place expected value : Loading α).outcome ≠ .ok result := by
  unfold misplaced
  split <;> exact fun same => nomatch same

theorem loadsOnes_loadContent {again : ContentLoader} (ones : again.LoadsOnes)
    (around : Value.Surroundings) : ContentLoader.LoadsOnes (loadContent again around) := by
  intro place kind value content loads
  cases value with
  | object mark entries =>
      rw [loadContent] at loads
      obtain ⟨parts, -, made⟩ := Reported.outcome_bind_eq_ok.mp loads
      obtain rfl := Except.ok.inj made
      refine ⟨_, rfl, ?_⟩
      rw [Element.kind_create]
      exact kind.admits_loadedFrom entries
  | enclosing shape mark =>
      rw [loadContent] at loads
      exact ones place kind _ content loads
  | scalar scalar => exact (outcome_misplaced_ne loads).elim
  | array mark items => exact (outcome_misplaced_ne loads).elim
  | pair mark first second => exact (outcome_misplaced_ne loads).elim
  | set mark members => exact (outcome_misplaced_ne loads).elim

section

variable {again : ContentLoader} {around : Value.Surroundings} {place : List Nat} {kind : Kind}

/-- An element is loaded for every item. -/
theorem loadMany_cons (ones : again.LoadsOnes) {item : Value} {items : List Value}
    {elements : List Element}
    (loads : (loadMany again around place kind (item :: items)).outcome = .ok elements) :
    ∃ element rest, (loadContent again around place (.one kind) item).outcome =
        .ok (some (.one element)) ∧
      (loadMany again around place kind items).outcome = .ok rest ∧
      elements = element :: rest := by
  rw [loadMany] at loads
  obtain ⟨content, first, loads⟩ := Reported.outcome_bind_eq_ok.mp loads
  obtain ⟨element, rfl, -⟩ := loadsOnes_loadContent ones around place kind item content first
  obtain ⟨rest, later, made⟩ := Reported.outcome_bind_eq_ok.mp loads
  exact ⟨element, rest, first, later, (Except.ok.inj made).symm⟩

/-- An element is loaded for every key. -/
theorem loadTable_cons (ones : again.LoadsOnes) {key : Scalar} {value : Value}
    {entries : Entries Value} {elements : Entries Element}
    (loads : (loadTable again around place kind ((key, value) :: entries)).outcome = .ok elements) :
    ∃ inner element rest, (loadContent again around inner (.one kind) value).outcome =
        .ok (some (.one element)) ∧
      (loadTable again around place kind entries).outcome = .ok rest ∧
      elements = (key, element) :: rest := by
  rw [loadTable] at loads
  obtain ⟨inner, -, loads⟩ := Reported.outcome_bind_eq_ok.mp loads
  obtain ⟨content, first, loads⟩ := Reported.outcome_bind_eq_ok.mp loads
  obtain ⟨element, rfl, -⟩ := loadsOnes_loadContent ones around inner kind value content first
  obtain ⟨rest, later, made⟩ := Reported.outcome_bind_eq_ok.mp loads
  exact ⟨inner, element, rest, first, later, (Except.ok.inj made).symm⟩

end

theorem loadsOnes_loadAgain (times : Nat) : (loadAgain times).LoadsOnes := by
  induction times with
  | zero => exact fun _ _ _ _ loads => nomatch loads
  | succ times ih => exact loadsOnes_loadContent ih []

end ServiceDoc
