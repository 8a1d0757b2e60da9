import ServiceDoc.Generation
import ServiceDoc.Proofs.Build.Run
import ServiceDoc.Proofs.Json.Decoded
import ServiceDoc.Proofs.OpenApi.Reload

/-!
# What is accepted as an element

The shape that a mapping has to have for being loaded as an element, said of the mapping alone:
the values under the keys of fields have the shapes of the fields, at every depth, and everything
else is arbitrary. Loading what comes from a text of JSON succeeds exactly for these mappings
(`Element.loads_iff_fits`), and otherwise fails because a value has another shape. Where the room
of loading is limited, an element that takes more is refused as well.
-/

namespace ServiceDoc

/-- A value has the shape of a field. A mapping in the place of an element has the fields of the
kind that it is loaded as. -/
inductive Fits : FieldShape → Value → Prop where
  | value (given : Value) : Fits .value given
  | flag (b : Bool) : Fits .flag (.bool b)
  | list (mark : Mark) (items : List Value) : Fits .list (.array mark items)
  | map (mark : Mark) (entries : Entries Value) : Fits .map (.object mark entries)
  | one {kind : Kind} {mark : Mark} {entries : Entries Value}
      (each : ∀ entry ∈ entries, ∀ field ∈ (kind.loadedFrom entries).fields,
        entry.1 = .string field.key → Fits field.shape entry.2) :
      Fits (.one kind) (.object mark entries)
  | many {kind : Kind} {mark : Mark} {items : List Value}
      (each : ∀ item ∈ items, Fits (.one kind) item) : Fits (.many kind) (.array mark items)
  | table {kind : Kind} {mark : Mark} {entries : Entries Value}
      (each : ∀ entry ∈ entries, Fits (.one kind) entry.2) :
      Fits (.table kind) (.object mark entries)
  | truth (kind : Kind) (b : Bool) : Fits (.boolOrOne kind) (.bool b)
  | element {kind : Kind} {given : Value} (fits : Fits (.one kind) given) :
      Fits (.boolOrOne kind) given

/-- The entries of a mapping have the shapes of the fields of a kind. -/
def Kind.EntriesFit (kind : Kind) (entries : Entries Value) : Prop :=
  ∀ entry ∈ entries, ∀ field ∈ kind.fields, entry.1 = .string field.key →
    Fits field.shape entry.2

section

variable {kind : Kind} {mark : Mark} {items : List Value} {entries : Entries Value}

theorem fits_one_iff :
    Fits (.one kind) (.object mark entries) ↔ (kind.loadedFrom entries).EntriesFit entries := by
  constructor
  · rintro ⟨⟩
    assumption
  · exact Fits.one

theorem fits_many_iff :
    Fits (.many kind) (.array mark items) ↔ ∀ item ∈ items, Fits (.one kind) item := by
  constructor
  · rintro ⟨⟩
    assumption
  · exact Fits.many

theorem fits_table_iff :
    Fits (.table kind) (.object mark entries) ↔ ∀ entry ∈ entries, Fits (.one kind) entry.2 := by
  constructor
  · rintro ⟨⟩
    assumption
  · exact Fits.table

theorem fits_boolOrOne_iff :
    Fits (.boolOrOne kind) (.object mark entries) ↔ Fits (.one kind) (.object mark entries) := by
  constructor
  · rintro ⟨⟩
    assumption
  · exact Fits.element

namespace Kind

variable {key : Scalar} {value : Value} {rest : Entries Value} {field : Field}

/-- A key that is no field's says nothing about its value. -/
theorem entriesFit_cons_of_other (other : ∀ field ∈ kind.fields, key ≠ .string field.key) :
    kind.EntriesFit ((key, value) :: rest) ↔ kind.EntriesFit rest := by
  unfold EntriesFit
  rw [List.forall_mem_cons]
  exact and_iff_right fun field known same => (other field known same).elim

theorem entriesFit_cons_of_mem (known : field ∈ kind.fields) :
    kind.EntriesFit ((.string field.key, value) :: rest) ↔
      Fits field.shape value ∧ kind.EntriesFit rest := by
  unfold EntriesFit
  rw [List.forall_mem_cons]
  refine and_congr_left fun _ => ⟨fun each => each field known rfl, ?_⟩
  intro fits among known_among same
  obtain rfl :=
    List.inj_on_of_nodup_map kind.fields_nodup known known_among (Scalar.string.inj same)
  exact fits

theorem ne_of_isExtension (extension : key.isExtension = true) :
    ∀ field ∈ kind.fields, key ≠ .string field.key := by
  rintro field known rfl
  rw [isExtension_of_mem_fields known] at extension
  contradiction

theorem exists_role (kind : Kind) (json : key.isJsonKey = true) :
    ∃ role, kind.role key = .ok role := by
  cases key with
  | string name =>
      rw [role]
      split
      · exact ⟨_, rfl⟩
      · split <;> exact ⟨_, rfl⟩
  | surrogates codes => exact ⟨_, rfl⟩
  | _ => exact (Bool.false_ne_true json).elim

end Kind

end

/-! ## Loading comes to an end -/

/-- Loading succeeds where something fits, and finds a value of another shape where it does not. -/
inductive Loading.Settles {α : Type} (loaded : Loading α) (fits : Prop) : Prop where
  | loads (content : α) (outcome : loaded.outcome = .ok content) (holds : fits)
  | misfits (place : List Nat) (expected : Expected) (value : Value)
      (outcome : loaded.outcome = .error (.misshapen place expected value)) (fails : ¬fits)

namespace Loading.Settles

variable {α β : Type} {loaded : Loading α} {fits other : Prop}

theorem congr (settles : loaded.Settles fits) (same : fits ↔ other) : loaded.Settles other := by
  rwa [propext same] at settles

theorem pure (given : α) (holds : fits) : Settles (pure given : Loading α) fits :=
  .loads given rfl holds

/-- A value in the place of one of another shape. -/
theorem misplaced {value : Value} (place : List Nat) (expected : Expected)
    (decoded : value.isDecoded = true) (fails : ¬fits) :
    Settles (misplaced place expected value : Loading α) fits := by
  unfold ServiceDoc.misplaced
  rw [value.holdsLong_of_isDecoded decoded, if_neg Bool.false_ne_true]
  exact .misfits place expected value rfl fails

/-- What is loaded in two steps has to fit in both. -/
theorem bind {next : α → Loading β} (first : loaded.Settles fits)
    (later : ∀ content, (next content).Settles other) :
    (loaded >>= next).Settles (fits ∧ other) := by
  cases first with
  | loads content loads holds =>
      have bound : (loaded >>= next).outcome = (next content).outcome := by
        rw [Reported.outcome_bind, loads]
        rfl
      cases later content with
      | loads result outcome others => exact .loads result (bound.trans outcome) ⟨holds, others⟩
      | misfits place expected value outcome fails =>
          exact .misfits place expected value (bound.trans outcome) fun both => fails both.2
  | misfits place expected value outcome fails =>
      refine .misfits place expected value ?_ fun both => fails both.1
      rw [Reported.outcome_bind, outcome]
      rfl

theorem map (settles : loaded.Settles fits) (change : α → β) :
    (loaded >>= fun content => Pure.pure (change content)).Settles fits :=
  (settles.bind fun content => .pure (change content) trivial).congr (and_iff_left trivial)

theorem report (settles : loaded.Settles fits) (notice : Notice) :
    Settles (Reported.report notice >>= fun _ => loaded) fits := by
  have told : Settles (Reported.report notice) True := .loads () rfl trivial
  exact (told.bind fun _ => settles).congr (and_iff_right trivial)

end Loading.Settles

/-! ## Loading from JSON -/

section

variable (again : ContentLoader) (around : Value.Surroundings) (place : List Nat)

theorem settles_scalar (shape : FieldShape) (scalar : Scalar)
    (decoded : (Value.scalar scalar).isDecoded = true) :
    (loadContent again around place shape (.scalar scalar)).Settles
      (Fits shape (.scalar scalar)) := by
  cases shape with
  | value => cases scalar <;> exact .pure _ (.value _)
  | flag =>
      cases scalar with
      | bool b => cases b <;> exact .pure _ (.flag _)
      | _ =>
          simp only [loadContent]
          exact .misplaced place .boolean decoded (by rintro ⟨⟩)
  | boolOrOne kind =>
      have no_element : ¬Fits (.one kind) (.scalar scalar) := by rintro ⟨⟩
      cases scalar with
      | bool b => exact .pure _ (.truth kind b)
      | _ =>
          simp only [loadContent]
          refine .misplaced place .mapping decoded fun fits => ?_
          cases fits with
          | element fits => exact no_element fits
  | list | many => exact .misplaced place .sequence decoded (by rintro ⟨⟩)
  | map | one | table => exact .misplaced place .mapping decoded (by rintro ⟨⟩)

mutual

/-- A value is loaded if it has the shape of the field. -/
theorem settles_loadContent (around : Value.Surroundings) (place : List Nat) (shape : FieldShape)
    (value : Value) (decoded : value.isDecoded = true) :
    (loadContent again around place shape value).Settles (Fits shape value) :=
  match value with
  | .scalar scalar => settles_scalar again around place shape scalar decoded
  | .array mark items => by
      have own := Value.closed_of_isDecoded around decoded
      cases shape with
      | value => exact .pure _ (.value _)
      | list => exact .pure _ (.list mark items)
      | many kind =>
          have settles :=
            settles_loadMany (around.enter mark (.array mark items)) place kind items decoded
          rw [loadContent]
          exact (settles.map fun elements => some (Content.many elements)).congr fits_many_iff.symm
      | flag =>
          rw [loadContent, own]
          exact .misplaced place .boolean decoded (by rintro ⟨⟩)
      | boolOrOne kind =>
          simp only [loadContent, own]
          refine .misplaced place .mapping decoded fun fits => ?_
          cases fits with
          | element fits => cases fits
      | map | one | table =>
          simp only [loadContent, own]
          exact .misplaced place .mapping decoded (by rintro ⟨⟩)
  | .object mark entries => by
      have own := Value.closed_of_isDecoded around decoded
      let inside := around.enter mark (.object mark entries)
      cases shape with
      | value => exact .pure _ (.value _)
      | map => exact .pure _ (.map mark entries)
      | table kind =>
          have settles := settles_loadTable inside place kind entries decoded
          rw [loadContent]
          exact (settles.map fun elements => some (Content.table elements)).congr
            fits_table_iff.symm
      | one kind =>
          have settles := settles_loadParts inside (kind.loadedFrom entries) entries decoded
          rw [loadContent]
          exact (settles.map _).congr fits_one_iff.symm
      | boolOrOne kind =>
          have settles := settles_loadParts inside (kind.loadedFrom entries) entries decoded
          rw [loadContent]
          exact (settles.map _).congr (fits_boolOrOne_iff.trans fits_one_iff).symm
      | flag =>
          rw [loadContent, own]
          exact .misplaced place .boolean decoded (by rintro ⟨⟩)
      | list | many =>
          simp only [loadContent, own]
          exact .misplaced place .sequence decoded (by rintro ⟨⟩)
  | .pair .. | .set .. | .enclosing .. => (Bool.false_ne_true decoded).elim

theorem settles_loadMany (around : Value.Surroundings) (place : List Nat) (kind : Kind)
    (items : List Value) (decoded : areDecoded items = true) :
    (loadMany again around place kind items).Settles (∀ item ∈ items, Fits (.one kind) item) :=
  match items with
  | [] => .pure _ fun _ member => (List.not_mem_nil member).elim
  | item :: rest => by
      rw [areDecoded, Bool.and_eq_true] at decoded
      have first := settles_loadContent around place (.one kind) item decoded.1
      have later := settles_loadMany around place kind rest decoded.2
      rw [loadMany, List.forall_mem_cons]
      refine first.bind fun content => ?_
      split
      · exact later.map _
      · exact later

theorem settles_loadTable (around : Value.Surroundings) (place : List Nat) (kind : Kind)
    (entries : List (Scalar × Value)) (decoded : holdDecoded entries = true) :
    (loadTable again around place kind entries).Settles
      (∀ entry ∈ entries, Fits (.one kind) entry.2) :=
  match entries with
  | [] => .pure _ fun _ member => (List.not_mem_nil member).elim
  | (key, value) :: rest => by
      obtain ⟨json, value_decoded, rest_decoded⟩ := holdDecoded_cons.mp decoded
      obtain ⟨inner, placed⟩ := placeOfKey_of_isJsonKey json place
      have first := settles_loadContent around inner (.one kind) value value_decoded
      have later := settles_loadTable around place kind rest rest_decoded
      rw [loadTable, placed, Reported.pure_bind, List.forall_mem_cons]
      refine first.bind fun content => ?_
      split
      · exact later.map _
      · exact later

/-- The entries of a mapping are loaded if each has the shape of its field. -/
theorem settles_loadParts (around : Value.Surroundings) (kind : Kind)
    (entries : List (Scalar × Value)) (decoded : holdDecoded entries = true) :
    (loadParts again around kind entries).Settles (kind.EntriesFit entries) :=
  match entries with
  | [] => .pure _ fun _ member => (List.not_mem_nil member).elim
  | (key, value) :: rest => by
      obtain ⟨json, value_decoded, rest_decoded⟩ := holdDecoded_cons.mp decoded
      have later := settles_loadParts around kind rest rest_decoded
      obtain ⟨entry_role, role⟩ := kind.exists_role json
      rw [loadParts, role]
      cases entry_role with
      | extension =>
          have other := kind.ne_of_isExtension (Kind.role_eq_extension role)
          exact (later.map _).congr (kind.entriesFit_cons_of_other other).symm
      | unknown =>
          have other := (Kind.role_eq_unknown role).2
          exact (later.report _).congr (kind.entriesFit_cons_of_other other).symm
      | field field =>
          obtain ⟨known, rfl⟩ := Kind.role_eq_field role
          rw [kind.entriesFit_cons_of_mem known]
          have first := settles_loadContent around (Text.codes field.key) field.shape value
            value_decoded
          refine first.bind fun content => ?_
          cases content <;> exact later.map _

end

end

/-- An element is loaded from a mapping if it has the fields of the kind that it is loaded as. -/
theorem Element.settles_load (kind : Kind) {entries : Entries Value}
    (decoded : holdDecoded entries = true) :
    (load kind entries).Settles (Fits (.one kind) (.map entries)) := by
  have settles :=
    settles_loadParts (loadAgain maxRounds) [] (kind.loadedFrom entries) entries decoded
  exact (settles.map _).congr fits_one_iff.symm

theorem Build.annotated_of_outcome_eq_error {loaded : Loading Element} {error : LoadError}
    (failed : loaded.outcome = .error error) (definition : String) (work : Workspace) :
    Build.annotated definition loaded work =
      .error (.payload definition error)
        { work with notices := work.notices ++ loaded.notices } := by
  unfold annotated
  rw [failed]
  rfl

/-- What comes from a text of JSON is loaded exactly if it has the shape of the element at every
depth. If it has not, the error tells what was found and what was expected in its place, and the
annotation of a definition is refused with an explanation to the caller. -/
theorem Element.loads_iff_fits (kind : Kind) (entries : Entries Value)
    (decoded : holdDecoded entries = true) :
    ((∃ element, (load kind entries).outcome = .ok element) ↔ Fits (.one kind) (.map entries)) ∧
    (∀ element, (load kind entries).outcome = .ok element → ∀ definition work, ∃ after,
      Build.Runs (Build.annotated definition (load kind entries)) work element after) ∧
    (¬Fits (.one kind) (.map entries) → ∃ place expected value,
      (load kind entries).outcome = .error (.misshapen place expected value) ∧
      ∀ definition work, ∃ failure after,
        Build.annotated definition (load kind entries) work = .error failure after ∧
        failure = .payload definition (.misshapen place expected value) ∧
        failure.isExplained = true) := by
  have settles := settles_load kind decoded
  refine ⟨⟨?_, ?_⟩, ?_, ?_⟩
  · rintro ⟨element, loads⟩
    cases settles with
    | loads _ _ holds => exact holds
    | misfits _ _ _ outcome => cases loads.symm.trans outcome
  · intro fits
    cases settles with
    | loads element outcome => exact ⟨element, outcome⟩
    | misfits _ _ _ _ fails => exact (fails fits).elim
  · intro element loads definition work
    exact ⟨_, Build.runs_annotated.mpr ⟨loads, rfl⟩⟩
  · intro misfits
    cases settles with
    | loads _ _ holds => exact (misfits holds).elim
    | misfits place expected value outcome =>
        refine ⟨place, expected, value, outcome, fun definition work => ?_⟩
        exact ⟨_, _, Build.annotated_of_outcome_eq_error outcome definition work, rfl, rfl⟩

/-- What an operation says about being deprecated, and an extension. -/
def retiredPayload (value : Value) : Entries Value :=
  [(.string "deprecated", value), (.string "x-since", .string "May")]

theorem Element.loads_retiredPayload :
    (∃ element, (load .operation (retiredPayload (.bool true))).outcome = .ok element) ∧
    ∃ place expected value,
      (load .operation (Value.markedEntries [0] 0 (retiredPayload (.string "true")))).outcome =
        .error (.misshapen place expected value) := by
  have known : ⟨"deprecated", .flag⟩ ∈ Kind.operation.fields := by decide
  constructor
  · have spelled : Json.ObjectText "\x7b\"deprecated\": true, \"x-since\": \"May\"\x7d".toList
        (retiredPayload (.bool true)) := Json.objectText_iff.mpr rfl
    refine (loads_iff_fits .operation _ (Json.holdDecoded_of_objectText spelled)).1.mpr ?_
    apply fits_one_iff.mpr
    apply (Kind.entriesFit_cons_of_mem known).mpr
    refine ⟨.flag true, ?_⟩
    apply (Kind.entriesFit_cons_of_other (Kind.ne_of_isExtension rfl)).mpr
    exact fun _ member => (List.not_mem_nil member).elim
  · have spelled : Json.ObjectText
        "\x7b\"deprecated\": \"true\", \"x-since\": \"May\"\x7d".toList
        (retiredPayload (.string "true")) := Json.objectText_iff.mpr rfl
    have decoded := Json.holdDecoded_of_objectText spelled
    rw [← holdDecoded_markedEntries [0] 0] at decoded
    have misfits : ¬Fits (.one .operation)
        (.map (Value.markedEntries [0] 0 (retiredPayload (.string "true")))) := by
      intro fits
      have flag := ((Kind.entriesFit_cons_of_mem known).mp (fits_one_iff.mp fits)).1
      cases flag
    obtain ⟨place, expected, value, failed, -⟩ :=
      (loads_iff_fits .operation _ decoded).2.2 misfits
    exact ⟨place, expected, value, failed⟩

/-! ## The room of loading -/

namespace Loading

variable {loaded : Loading Element} {element : Element}

/-- What is loaded with limited room is loaded without, and takes no more than there is. -/
theorem outcome_limited_eq_ok : loaded.limited.outcome = .ok element ↔
    loaded.outcome = .ok element ∧ element.room .loading ≤ allRoom := by
  unfold limited
  rw [Reported.outcome_bind_eq_ok]
  constructor
  · rintro ⟨other, loads, checked⟩
    split at checked
    · contradiction
    next fits =>
      obtain rfl := Except.ok.inj checked
      exact ⟨loads, not_lt.mp fits⟩
  · rintro ⟨loads, fits⟩
    refine ⟨element, loads, ?_⟩
    rw [if_neg (not_lt.mpr fits)]
    rfl

/-- Loading with limited room fails as it does without, or for what takes more than there is. -/
theorem exists_of_outcome_limited {error : LoadError}
    (failed : loaded.limited.outcome = .error error) : loaded.outcome = .error error ∨
      error = .endless ∧ ∃ element, loaded.outcome = .ok element ∧
        allRoom < element.room .loading := by
  unfold limited at failed
  rw [Reported.outcome_bind] at failed
  cases outcome : loaded.outcome with
  | error other =>
      rw [outcome] at failed
      exact .inl failed
  | ok element =>
      rw [outcome] at failed
      change Reported.outcome (ite _ _ _) = _ at failed
      split at failed
      next deep => exact .inr ⟨(Except.error.inj failed).symm, element, rfl, deep⟩
      · contradiction

end Loading

end ServiceDoc
