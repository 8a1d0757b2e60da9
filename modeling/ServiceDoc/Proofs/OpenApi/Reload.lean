import ServiceDoc.Proofs.OpenApi.Document
import ServiceDoc.Proofs.OpenApi.Overlay

/-!
# What is written reads back

An element that was loaded from JSON is written in the order of its kind and without what holds
nothing. What is written is loaded again without a notice, and is then written as it was: all that
is lost is lost at once. References must say what they refer to, since a mapping is known as a
reference by that alone.
-/

namespace ServiceDoc

namespace Reported

variable {ε α β : Type}

/-- What is given without a notice is gone on with. -/
theorem pure_bind (value : α) (next : α → Reported ε β) : pure value >>= next = next value := rfl

end Reported

/-! ## References -/

mutual
/-- Every mapping in a value that is a reference says what it refers to. -/
def Value.refers : Value → Bool
  | .array _ items => allRefer items
  | .object _ entries => entriesRefer entries
  | _ => true

/-- The references among values say what they refer to. -/
def allRefer : List Value → Bool
  | [] => true
  | item :: items => item.refers && allRefer items

/-- The entries of a mapping, and the values in it, say what they refer to. -/
def entriesRefer : List (Scalar × Value) → Bool
  | [] => true
  | (key, value) :: entries =>
    (key ≠ .string "$ref" || !value.isUnset) && value.refers && entriesRefer entries
end

theorem set_of_entriesRefer {entries : Entries Value} (refer : entriesRefer entries = true)
    {value : Value} (member : (.string "$ref", value) ∈ entries) : value.isUnset = false := by
  induction entries with
  | nil => exact (List.not_mem_nil member).elim
  | cons entry rest ih =>
      simp only [entriesRefer, Bool.and_eq_true] at refer
      rcases List.mem_cons.mp member with rfl | member
      · simpa using refer.1.1
      · exact ih refer.2 member

theorem isJson_of_mem {entries : Entries Value} (json : holdJson entries = true)
    {entry : Scalar × Value} (member : entry ∈ entries) : entry.2.isJson = true := by
  induction entries with
  | nil => exact (List.not_mem_nil member).elim
  | cons first rest ih =>
      obtain ⟨key, value⟩ := first
      simp only [holdJson, Bool.and_eq_true] at json
      rcases List.mem_cons.mp member with rfl | member
      · exact json.1.2
      · exact ih json.2 member

/-! ## Reading back -/

section

variable (again : ContentLoader)

/-- A value reads back in the place of a shape: it is loaded without a notice, and what is loaded is
written as the value. -/
def ReadsBack (shape : FieldShape) (value : Value) : Prop :=
  ∀ place, ∃ content, loadContent again [] place shape value = pure (some content) ∧
    dumpContent content = some value

/-- Entries are written as an element of a kind writes them: first its fields, in the order of the
kind and with values that read back, then extensions. -/
structure Kind.Writes (kind : Kind) (entries : Entries Value) : Prop where
  arranged : entries =
    kind.tabulate (fun key => entries.get? (.string key)) ++ entries.extended
  distinct : entries.extended.keys.Nodup
  readsBack : ∀ field ∈ kind.fields, ∀ value ∈ entries.get? (.string field.key),
    ReadsBack again field.shape value

end

variable {again : ContentLoader} {kind : Kind} {given : Value} {items : List Value}
  {entries : Entries Value}

/-- A value in JSON is nothing only as a null, an empty text, sequence or mapping. -/
theorem set_or_null (json : given.isJson = true) (not_text : given ≠ .string "")
    (not_list : given ≠ .list []) (not_map : given ≠ .map []) :
    given.isUnset = false ∨ given = .null := by
  cases given with
  | scalar scalar =>
      cases scalar with
      | null => exact .inr rfl
      | string text => exact .inl (beq_false_of_ne fun empty => not_text (by rw [empty]))
      | _ => exact .inl rfl
  | array mark items =>
      rw [Value.isJson, Bool.and_eq_true, List.isEmpty_iff] at json
      obtain ⟨rfl, -⟩ := json
      exact .inl (List.isEmpty_eq_false_iff.mpr fun empty => not_list (congrArg _ empty))
  | object mark entries =>
      rw [Value.isJson, Bool.and_eq_true, Bool.and_eq_true, List.isEmpty_iff] at json
      obtain ⟨⟨rfl, -⟩, -⟩ := json
      exact .inl (List.isEmpty_eq_false_iff.mpr fun empty => not_map (congrArg _ empty))
  | _ => exact .inl rfl

/-- A value in JSON that is not nothing is kept where any value can stand. -/
theorem loadContent_value (json : given.isJson = true) (set : given.isUnset = false)
    (place : List Nat) :
    loadContent again [] place .value given = pure (some (.value given)) := by
  cases given with
  | scalar scalar =>
      cases scalar with
      | null => contradiction
      | _ => rfl
  | array => rfl
  | object => rfl
  | pair | set | enclosing => exact (Bool.false_ne_true json).elim

namespace ReadsBack

theorem value (json : given.isJson = true) (set : given.isUnset = false) :
    ReadsBack again .value given :=
  fun place => ⟨.value given, loadContent_value json set place, by rw [dumpContent, set]; rfl⟩

theorem flag : ReadsBack again .flag (.bool true) := fun _ => ⟨.flag, rfl, rfl⟩

theorem bool (b : Bool) : ReadsBack again (.boolOrOne kind) (.bool b) :=
  fun _ => ⟨.value (.bool b), rfl, rfl⟩

theorem list (set : (Value.list items).isUnset = false) : ReadsBack again .list (.list items) :=
  fun _ => ⟨.list items,
    congrArg (fun items => pure (some (Content.list items))) (List.map_id items),
    if_neg (Bool.eq_false_iff.mp set)⟩

theorem map (set : (Value.map entries).isUnset = false) : ReadsBack again .map (.map entries) :=
  fun _ => ⟨.map entries,
    congrArg (fun entries => pure (some (Content.map entries))) (List.map_id entries),
    if_neg (Bool.eq_false_iff.mp set)⟩

end ReadsBack

/-- A value that reads back in the place of an element is read as an element. -/
theorem ReadsBack.exists_element (ones : again.LoadsOnes)
    (reads : ReadsBack again (.one kind) given) (place : List Nat) :
    ∃ element : Element, loadContent again [] place (.one kind) given = pure (some (.one element)) ∧
      Value.map element.dump = given := by
  obtain ⟨content, loads, written⟩ := reads place
  have outcome := congrArg Reported.outcome loads
  obtain ⟨element, made, -⟩ := loadsOnes_loadContent ones [] place kind given _ outcome
  obtain rfl := Option.some.inj made
  exact ⟨element, loads, Option.some.inj written⟩

theorem ReadsBack.many (ones : again.LoadsOnes) (set : (Value.list items).isUnset = false)
    (each : ∀ item ∈ items, ReadsBack again (.one kind) item) :
    ReadsBack again (.many kind) (.list items) := by
  intro place
  have loads : ∃ elements, loadMany again [] place kind items = pure elements ∧
      dumpMany elements = items := by
    clear set
    induction items with
    | nil => exact ⟨[], rfl, rfl⟩
    | cons item rest ih =>
        obtain ⟨element, first, written⟩ := (each item (.head _)).exists_element ones place
        obtain ⟨elements, later, others⟩ := ih fun other member => each other (.tail _ member)
        refine ⟨element :: elements, ?_, by rw [dumpMany, written, others]⟩
        rw [loadMany, first, Reported.pure_bind]
        dsimp only
        rw [later]
        rfl
  obtain ⟨elements, loads, written⟩ := loads
  refine ⟨.many elements, ?_, ?_⟩
  · change (do let elements ← loadMany again [] place kind items
               return some (Content.many elements)) = _
    rw [loads, Reported.pure_bind]
  · rw [dumpContent_many, written]
    exact if_neg (Bool.eq_false_iff.mp set)

/-- The place of a key in JSON can be shown. -/
theorem placeOfKey_of_isJsonKey {key : Scalar} (json : key.isJsonKey = true) (place : List Nat) :
    ∃ inner, placeOfKey place key = pure inner := by
  cases key with
  | string | surrogates => exact ⟨_, rfl⟩
  | _ => exact (Bool.false_ne_true json).elim

theorem ReadsBack.table (ones : again.LoadsOnes) (set : (Value.map entries).isUnset = false)
    (each : ∀ entry ∈ entries, entry.1.isJsonKey = true ∧ ReadsBack again (.one kind) entry.2) :
    ReadsBack again (.table kind) (.map entries) := by
  intro place
  have loads : ∃ elements, loadTable again [] place kind entries = pure elements ∧
      dumpTable elements = entries := by
    clear set
    induction entries with
    | nil => exact ⟨[], rfl, rfl⟩
    | cons entry rest ih =>
        obtain ⟨key, value⟩ := entry
        obtain ⟨json, reads⟩ := each _ (.head _)
        obtain ⟨inner, placed⟩ := placeOfKey_of_isJsonKey json place
        obtain ⟨element, first, written⟩ := reads.exists_element ones inner
        obtain ⟨elements, later, others⟩ := ih fun other member => each other (.tail _ member)
        refine ⟨(key, element) :: elements, ?_, by rw [dumpTable, written, others]⟩
        rw [loadTable, placed, Reported.pure_bind, first, Reported.pure_bind]
        dsimp only
        rw [later]
        rfl
  obtain ⟨elements, loads, written⟩ := loads
  refine ⟨.table elements, ?_, ?_⟩
  · change (do let elements ← loadTable again [] place kind entries
               return some (Content.table elements)) = _
    rw [loads, Reported.pure_bind]
  · rw [dumpContent_table, written]
    exact if_neg (Bool.eq_false_iff.mp set)

/-! ## Reading back an element -/

theorem Kind.role_of_isExtension {key : Scalar} (extension : key.isExtension = true) :
    kind.role key = .ok .extension := by
  cases key with
  | string name => rw [role, if_pos (show isExtensionKey name = true from extension)]
  | surrogates codes => rw [role, if_pos (of_decide_eq_true extension)]
  | _ => exact (Bool.false_ne_true extension).elim

theorem Kind.role_of_mem_fields {field : Field} (known : field ∈ kind.fields) :
    kind.role (.string field.key) = .ok (.field field) := by
  have plain : ¬isExtensionKey field.key = true :=
    Bool.eq_false_iff.mp (isExtension_of_mem_fields known)
  rw [role, if_neg plain, field?_eq_some_iff.mpr ⟨known, rfl⟩]

/-- Entries of fields that read back and of extensions are loaded without a notice, and the fields
are written as they were. -/
theorem loadParts_of_readsBack
    (each : ∀ entry ∈ entries, entry.1.isExtension = true ∨
      ∃ field ∈ kind.fields, entry.1 = .string field.key ∧ ReadsBack again field.shape entry.2) :
    ∃ parts, loadParts again [] kind entries = pure parts ∧ parts.extensions = entries.extended ∧
      ∀ field ∈ kind.fields,
        (dumpFields parts.fields).lookup field.key = entries.get? (.string field.key) := by
  induction entries with
  | nil => exact ⟨{}, rfl, rfl, fun _ _ => rfl⟩
  | cons entry rest ih =>
      obtain ⟨key, value⟩ := entry
      obtain ⟨parts, later, extensions, written⟩ :=
        ih fun other member => each other (.tail _ member)
      rcases each _ (.head _) with extension | ⟨field, known, named, reads⟩
      · refine ⟨{ parts with extensions := (key, value) :: parts.extensions }, ?_, ?_, ?_⟩
        · rw [loadParts, Kind.role_of_isExtension extension, later]
          rfl
        · rw [Entries.extended_cons, if_pos extension, ← extensions]
        · intro field known
          rw [Entries.get?_cons, if_neg, written field known]
          rintro rfl
          exact Bool.false_ne_true ((Kind.isExtension_of_mem_fields known).symm.trans extension)
      · obtain rfl : key = .string field.key := named
        obtain ⟨content, first, dumped⟩ := reads (Text.codes field.key)
        refine ⟨{ parts with fields := (field.key, content) :: parts.fields }, ?_, ?_, ?_⟩
        · rw [loadParts, Kind.role_of_mem_fields known]
          change (loadContent again [] (Text.codes field.key) field.shape value >>= fun content =>
            loadParts again [] kind rest >>= fun parts => _) = _
          rw [first, Reported.pure_bind, later, Reported.pure_bind]
        · rw [Entries.extended_cons, Kind.isExtension_of_mem_fields known,
            if_neg Bool.false_ne_true]
          exact extensions
        · intro other among
          rw [dumpFields, dumped, Entries.get?_cons]
          by_cases same : other.key = field.key
          · rw [same, List.lookup_cons_self, if_pos rfl]
          · rw [List.lookup_cons, beq_false_of_ne same,
              if_neg fun keys => same (Scalar.string.inj keys).symm]
            exact written other among

/-- What an element writes is loaded without a notice, and written again. -/
theorem Kind.Writes.loads (writes : kind.Writes again entries) :
    ∃ parts, loadParts again [] kind entries = pure parts ∧
      (Element.mk kind parts.fields parts.extensions).dump = entries ∧
      ∀ field ∈ kind.fields,
        (dumpFields parts.fields).lookup field.key = entries.get? (.string field.key) := by
  have each : ∀ entry ∈ entries, entry.1.isExtension = true ∨ ∃ field ∈ kind.fields,
      entry.1 = .string field.key ∧ ReadsBack again field.shape entry.2 := by
    intro entry member
    rw [writes.arranged, List.mem_append] at member
    rcases member with listed | extended
    · obtain ⟨field, known, given⟩ := List.mem_filterMap.mp listed
      obtain ⟨value, found, rfl⟩ := Option.map_eq_some_iff.mp given
      exact .inr ⟨field, known, rfl, writes.readsBack field known value found⟩
    · exact .inl (List.mem_filter.mp extended).2
  obtain ⟨parts, loads, extensions, written⟩ := loadParts_of_readsBack each
  refine ⟨parts, loads, ?_, written⟩
  have tabled : kind.arrange (dumpFields parts.fields) =
      kind.tabulate fun key => entries.get? (.string key) :=
    List.filterMap_congr fun field known => congrArg (Option.map _) (written field known)
  have apart : ∀ key ∈ entries.extended.keys,
      key ∉ (kind.tabulate fun key => entries.get? (.string key)).keys := by
    intro key member inside
    have extension := (Entries.mem_keys_extended.mp member).2
    rw [Kind.isExtension_of_mem_tabulate inside] at extension
    contradiction
  rw [Element.dump, tabled, extensions, Entries.putAll_of_disjoint writes.distinct apart]
  exact writes.arranged.symm

/-- An element is written as its kind writes elements, if what its fields hold reads back. -/
theorem Element.writes_dump {element : Element} (regular : element.IsRegular)
    (each : ∀ entry ∈ element.fields, ∃ field ∈ element.kind.fields, field.key = entry.1 ∧
      ∀ value ∈ dumpContent entry.2, ReadsBack again field.shape value) :
    element.kind.Writes again element.dump where
  arranged := by
    rw [regular.extended_dump]
    refine regular.dump_eq.trans (congrArg (· ++ _) ?_)
    exact List.filterMap_congr fun field known => congrArg _ (regular.get?_dump known).symm
  distinct := by
    rw [regular.extended_dump]
    exact regular.extensions_distinct
  readsBack field known value member := by
    rw [regular.get?_dump known] at member
    obtain ⟨content, held, written⟩ := Option.bind_eq_some_iff.mp member
    obtain ⟨other, among, same, reads⟩ := each _ (mem_of_lookup held)
    obtain rfl := List.inj_on_of_nodup_map element.kind.fields_nodup among known same
    exact reads value written

/-- A mapping reads back in the place of an element if the kind that it is loaded as writes it. -/
theorem ReadsBack.object {shape : FieldShape} (place : shape = .one kind ∨ shape = .boolOrOne kind)
    (plain : kind ≠ .document) (writes : (kind.loadedFrom entries).Writes again entries) :
    ReadsBack again shape (.map entries) := by
  intro inner
  obtain ⟨parts, loads, written, -⟩ := writes.loads
  refine ⟨.one (.mk _ parts.fields parts.extensions), ?_,
    congrArg (fun dump => some (Value.map dump)) written⟩
  rw [← Element.create_of_ne (Kind.loadedFrom_ne_document plain entries)]
  rcases place with rfl | rfl
  all_goals
    change (do let parts ← loadParts again [] (kind.loadedFrom entries) entries
               return some (Content.one (.create (kind.loadedFrom entries) parts.fields
                 parts.extensions))) = _
    rw [loads, Reported.pure_bind]

/-! ## What is loaded -/

section

variable {parts : Parts} {around : Value.Surroundings}

/-- What a field holds is what is loaded for the value under its key. -/
theorem lookup_of_loadParts (distinct : entries.keys.Nodup)
    (loads : (loadParts again around kind entries).outcome = .ok parts) {field : Field}
    (known : field ∈ kind.fields) (found : entries.get? (.string field.key) = some given) :
    (loadContent again around (Text.codes field.key) field.shape given).outcome =
      .ok (parts.fields.lookup field.key) := by
  induction entries generalizing parts with
  | nil => exact (Option.some_ne_none _ found.symm).elim
  | cons entry rest ih =>
      obtain ⟨key, value⟩ := entry
      obtain ⟨others, later, adds⟩ := loadParts_cons loads
      obtain ⟨unlike, rest_distinct⟩ := List.nodup_cons.mp distinct
      have ih (found : Entries.get? rest (.string field.key) = some given) :=
        ih rest_distinct later found
      rw [Entries.get?_cons] at found
      cases adds with
      | extension role =>
          rw [if_neg] at found
          · exact ih found
          · rintro rfl
            exact Bool.false_ne_true ((Kind.isExtension_of_mem_fields known).symm.trans
              (Kind.role_eq_extension role))
      | unknown role =>
          rw [if_neg ((Kind.role_eq_unknown role).2 field known)] at found
          exact ih found
      | field other content role inner =>
          obtain ⟨among, rfl⟩ := Kind.role_eq_field role
          by_cases same : other.key = field.key
          · obtain rfl := List.inj_on_of_nodup_map kind.fields_nodup among known same
            rw [if_pos rfl] at found
            obtain rfl := Option.some.inj found
            have unset : others.fields.lookup other.key = none := by
              refine List.lookup_eq_none_iff.mpr fun held member => bne_iff_ne.mpr fun same => ?_
              exact unlike ((keys_of_loadParts later).subset
                (List.mem_map.mpr ⟨held, member, congrArg Scalar.string same.symm⟩))
            rw [inner, List.lookup_append, unset, Option.or_none]
            cases content <;> simp
          · rw [if_neg fun keys => same (Scalar.string.inj keys)] at found
            rw [ih found, List.lookup_append]
            cases content with
            | none => rfl
            | some content =>
                simp [List.lookup_cons, beq_false_of_ne (Ne.symm same)]

/-- A field that is loaded stood under its key. -/
theorem exists_of_lookup (loads : (loadParts again around kind entries).outcome = .ok parts)
    {key : String} {content : Content} (held : parts.fields.lookup key = some content) :
    ∃ value, entries.get? (.string key) = some value := by
  have member : Scalar.string key ∈ entries.keys := (keys_of_loadParts loads).subset
    (List.mem_map.mpr ⟨(key, content), mem_of_lookup held, rfl⟩)
  cases found : entries.get? (.string key) with
  | none => exact (Entries.get?_eq_none_iff.mp found member).elim
  | some value => exact ⟨value, rfl⟩

/-- What is loaded in the place of a kind is written as an element of its own kind. -/
theorem loadedFrom_dump_of_loadParts (json : holdJson entries = true)
    (refer : entriesRefer entries = true) (distinct : entries.keys.Nodup)
    (loads : (loadParts again [] (kind.loadedFrom entries) entries).outcome = .ok parts) :
    kind.loadedFrom (Element.mk (kind.loadedFrom entries) parts.fields parts.extensions).dump =
      kind.loadedFrom entries := by
  have regular := isRegular_of_loadParts distinct loads
  by_cases schema : kind = .schema
  · subst schema
    by_cases ref : entries.contains (.string "$ref") = true
    · have own : Kind.schema.loadedFrom entries = .reference := if_pos ⟨rfl, ref⟩
      rw [own] at loads regular ⊢
      refine if_pos ⟨rfl, ?_⟩
      have known : (⟨"$ref", .value⟩ : Field) ∈ Kind.reference.fields := by decide
      rw [Entries.contains_eq_isSome_get?] at ref ⊢
      obtain ⟨value, found⟩ := Option.isSome_iff_exists.mp ref
      have member := Entries.mem_of_get? found
      have set := set_of_entriesRefer refer member
      have held := lookup_of_loadParts distinct loads known found
      rw [loadContent_value (isJson_of_mem json member) set] at held
      rw [regular.get?_dump known, Element.writtenAt?, Element.get?, Element.fields,
        ← Except.ok.inj held, Option.bind_some, dumpContent, set]
      rfl
    · have own : Kind.schema.loadedFrom entries = .schema := if_neg fun both => ref both.2
      rw [own] at loads regular ⊢
      refine if_neg fun both => ?_
      have unknown : ∀ field ∈ Kind.schema.fields, Scalar.string "$ref" ≠ .string field.key := by
        decide
      have absent : Scalar.string "$ref" ∉ parts.extensions.keys := fun member =>
        absurd (regular.extended _ member) (by decide)
      have missing := regular.get?_dump_of_ne unknown
      rw [Element.extensions, Entries.get?_eq_none_iff.mpr absent] at missing
      rw [Entries.contains_eq_isSome_get?, missing] at both
      exact Bool.false_ne_true both.2
  · rw [Kind.loadedFrom, Kind.loadedFrom, if_neg fun both => schema both.1,
      if_neg fun both => schema both.1]

end

/-- What reads back if it is not nothing reads back if it is written. -/
theorem readsBack_of_set {shape : FieldShape}
    (reads : given.isUnset = false → ReadsBack again shape given) :
    ∀ value ∈ given.set?, ReadsBack again shape value := by
  intro value written
  rw [Value.set?] at written
  split at written
  next => exact (Option.some_ne_none _ written.symm).elim
  next set =>
    obtain rfl := Option.some.inj written
    exact reads (eq_false_of_ne_true set)

/-- What is loaded for a mapping in the place of an element reads back. -/
theorem readsBack_of_object {shape : FieldShape}
    (place : shape = .one kind ∨ shape = .boolOrOne kind) (plain : kind ≠ .document)
    (json : holdJson entries = true) (refer : entriesRefer entries = true)
    (distinct : entries.keys.Nodup) {parts : Parts}
    (loads : (loadParts again [] (kind.loadedFrom entries) entries).outcome = .ok parts)
    (each : ∀ entry ∈ parts.fields, ∃ field ∈ (kind.loadedFrom entries).fields,
      field.key = entry.1 ∧ ∀ value ∈ dumpContent entry.2, ReadsBack again field.shape value) :
    ∀ value ∈ dumpContent (.one (.create (kind.loadedFrom entries) parts.fields parts.extensions)),
      ReadsBack again shape value := by
  intro value written
  obtain rfl := Option.some.inj written
  rw [Element.create_of_ne (Kind.loadedFrom_ne_document plain entries)]
  have writes := Element.writes_dump (isRegular_of_loadParts distinct loads) each
  have own := loadedFrom_dump_of_loadParts json refer distinct loads
  exact .object place plain (own.symm ▸ writes)

mutual

/-- What is loaded from JSON for a field reads back. -/
theorem readsBack_of_loadContent (ones : again.LoadsOnes) (place : List Nat) (shape : FieldShape)
    (plain : shape.inside? ≠ some .document) (value : Value) (json : value.isJson = true)
    (refer : value.refers = true) {content : Option Content}
    (loads : (loadContent again [] place shape value).outcome = .ok content) :
    ∀ held ∈ content, ∀ written ∈ dumpContent held, ReadsBack again shape written :=
  match value with
  | .scalar scalar => by
      cases shape with
      | value =>
          cases scalar with
          | null =>
              obtain rfl := Except.ok.inj loads
              exact fun _ member => nomatch member
          | _ =>
              obtain rfl := Except.ok.inj loads
              rintro held ⟨⟩
              exact readsBack_of_set (.value json)
      | flag =>
          cases scalar with
          | bool set =>
              cases set with
              | true =>
                  obtain rfl := Except.ok.inj loads
                  rintro held ⟨⟩ written ⟨⟩
                  exact .flag
              | false =>
                  obtain rfl := Except.ok.inj loads
                  exact fun _ member => nomatch member
          | _ => exact (outcome_misplaced_ne loads).elim
      | boolOrOne kind =>
          cases scalar with
          | bool b =>
              obtain rfl := Except.ok.inj loads
              rintro held ⟨⟩ written ⟨⟩
              exact .bool b
          | _ => exact (outcome_misplaced_ne loads).elim
      | _ => exact (outcome_misplaced_ne loads).elim
  | .array mark items => by
      have whole := json
      rw [Value.isJson, Bool.and_eq_true, List.isEmpty_iff] at json
      obtain ⟨rfl, inner⟩ := json
      cases shape with
      | value =>
          obtain rfl := Except.ok.inj loads
          rintro held ⟨⟩
          exact readsBack_of_set (.value whole)
      | list =>
          obtain rfl := (Except.ok.inj loads).symm.trans
            (congrArg (fun items => some (Content.list items)) (List.map_id items))
          rintro held ⟨⟩
          exact readsBack_of_set .list
      | many kind =>
          obtain ⟨elements, many, made⟩ := Reported.outcome_bind_eq_ok.mp loads
          obtain rfl := Except.ok.inj made
          have each := readsBack_of_loadMany ones place (fun same => plain (congrArg some same))
            items inner refer many
          rintro held ⟨⟩
          rw [dumpContent_many]
          exact readsBack_of_set fun set => .many ones set each
      | _ => exact (outcome_misplaced_ne loads).elim
  | .object mark entries => by
      have whole := json
      rw [Value.isJson, Bool.and_eq_true, Bool.and_eq_true, List.isEmpty_iff,
        decide_eq_true_iff] at json
      obtain ⟨⟨rfl, distinct⟩, inner⟩ := json
      cases shape with
      | value =>
          obtain rfl := Except.ok.inj loads
          rintro held ⟨⟩
          exact readsBack_of_set (.value whole)
      | map =>
          obtain rfl := (Except.ok.inj loads).symm.trans
            (congrArg (fun entries => some (Content.map entries)) (List.map_id entries))
          rintro held ⟨⟩
          exact readsBack_of_set .map
      | table kind =>
          obtain ⟨elements, tabled, made⟩ := Reported.outcome_bind_eq_ok.mp loads
          obtain rfl := Except.ok.inj made
          have each := readsBack_of_loadTable ones place (fun same => plain (congrArg some same))
            entries inner refer tabled
          rintro held ⟨⟩
          rw [dumpContent_table]
          exact readsBack_of_set fun set => .table ones set each
      | one kind =>
          obtain ⟨parts, parts_load, made⟩ := Reported.outcome_bind_eq_ok.mp loads
          obtain rfl := Except.ok.inj made
          rintro held ⟨⟩
          exact readsBack_of_object (.inl rfl) (fun same => plain (congrArg some same)) inner refer
            distinct parts_load (readsBack_of_loadParts ones entries inner refer parts_load)
      | boolOrOne kind =>
          obtain ⟨parts, parts_load, made⟩ := Reported.outcome_bind_eq_ok.mp loads
          obtain rfl := Except.ok.inj made
          rintro held ⟨⟩
          exact readsBack_of_object (.inr rfl) (fun same => plain (congrArg some same)) inner refer
            distinct parts_load (readsBack_of_loadParts ones entries inner refer parts_load)
      | _ => exact (outcome_misplaced_ne loads).elim
  | .pair .. | .set .. | .enclosing .. => (Bool.false_ne_true json).elim

theorem readsBack_of_loadMany (ones : again.LoadsOnes) (place : List Nat) {kind : Kind}
    (plain : kind ≠ .document) (items : List Value) (json : areJson items = true) (refer : allRefer items = true)
    {elements : List Element}
    (loads : (loadMany again [] place kind items).outcome = .ok elements) :
    ∀ item ∈ dumpMany elements, ReadsBack again (.one kind) item :=
  match items with
  | [] => by
      obtain rfl := Except.ok.inj loads
      exact fun _ member => (List.not_mem_nil member).elim
  | item :: rest => by
      obtain ⟨element, others, first, later, rfl⟩ := loadMany_cons ones loads
      rw [areJson, Bool.and_eq_true] at json
      rw [allRefer, Bool.and_eq_true] at refer
      exact List.forall_mem_cons.mpr ⟨readsBack_of_loadContent ones place (.one kind)
        (fun same => plain (Option.some.inj same)) item json.1 refer.1 first _ rfl _ rfl,
        readsBack_of_loadMany ones place plain rest json.2 refer.2 later⟩

theorem readsBack_of_loadTable (ones : again.LoadsOnes) (place : List Nat) {kind : Kind}
    (plain : kind ≠ .document) (entries : List (Scalar × Value)) (json : holdJson entries = true)
    (refer : entriesRefer entries = true) {elements : List (Scalar × Element)}
    (loads : (loadTable again [] place kind entries).outcome = .ok elements) :
    ∀ entry ∈ dumpTable elements,
      entry.1.isJsonKey = true ∧ ReadsBack again (.one kind) entry.2 :=
  match entries with
  | [] => by
      obtain rfl := Except.ok.inj loads
      exact fun _ member => (List.not_mem_nil member).elim
  | (key, value) :: rest => by
      obtain ⟨inner, element, others, first, later, rfl⟩ := loadTable_cons ones loads
      rw [holdJson, Bool.and_eq_true, Bool.and_eq_true] at json
      rw [entriesRefer, Bool.and_eq_true, Bool.and_eq_true] at refer
      exact List.forall_mem_cons.mpr ⟨⟨json.1.1, readsBack_of_loadContent ones inner (.one kind)
        (fun same => plain (Option.some.inj same)) value json.1.2 refer.1.2 first _ rfl _ rfl⟩,
        readsBack_of_loadTable ones place plain rest json.2 refer.2 later⟩

theorem readsBack_of_loadParts (ones : again.LoadsOnes) {kind : Kind}
    (entries : List (Scalar × Value)) (json : holdJson entries = true)
    (refer : entriesRefer entries = true) {parts : Parts}
    (loads : (loadParts again [] kind entries).outcome = .ok parts) :
    ∀ entry ∈ parts.fields, ∃ field ∈ kind.fields, field.key = entry.1 ∧
      ∀ value ∈ dumpContent entry.2, ReadsBack again field.shape value :=
  match entries with
  | [] => by
      obtain rfl := Except.ok.inj loads
      exact fun _ member => (List.not_mem_nil member).elim
  | (key, value) :: rest => by
      obtain ⟨others, later, adds⟩ := loadParts_cons loads
      rw [holdJson, Bool.and_eq_true, Bool.and_eq_true] at json
      rw [entriesRefer, Bool.and_eq_true, Bool.and_eq_true] at refer
      have ih := readsBack_of_loadParts ones rest json.2 refer.2 later
      cases adds with
      | extension => exact ih
      | unknown => exact ih
      | field field content role inner =>
          obtain ⟨known, rfl⟩ := Kind.role_eq_field role
          have first := readsBack_of_loadContent ones _ field.shape
            (kind.inside?_ne_document field known) value json.1.2 refer.1.2 inner
          intro entry member
          rcases List.mem_append.mp member with new | old
          · obtain ⟨held, rfl, rfl⟩ := Option.map_eq_some_iff.mp (Option.mem_toList.mp new)
            exact ⟨field, known, rfl, first held rfl⟩
          · exact ih entry old

end

namespace Element

/-! ## Reading back what was loaded -/

/-- What is missing in a document is not missing where it is set. -/
theorem create_of_set {fields : List (String × Content)} (extensions : Entries Value)
    (set : ∀ field ∈ defaults, (fields.lookup field.1).isSome = true) :
    create .document fields extensions = mk .document fields extensions := by
  have same : setDefaults fields defaults = fields := by
    unfold setDefaults
    generalize defaults = given at set
    induction given with
    | nil => rfl
    | cons field rest ih =>
        have first : setDefault fields field.1 field.2 = fields := if_pos (set field (.head _))
        rw [List.foldl_cons, first]
        exact ih fun other member => set other (.tail _ member)
  exact congrArg (mk .document · extensions) ((fields_create fields extensions).symm.trans same)

theorem isSome_lookup_of_dumpFields {fields : List (String × Content)} {key : String}
    (written : ((dumpFields fields).lookup key).isSome = true) :
    (fields.lookup key).isSome = true := by
  induction fields with
  | nil => exact written
  | cons field rest ih =>
      obtain ⟨name, content⟩ := field
      by_cases same : key = name
      · rw [same, List.lookup_cons_self]
        rfl
      · rw [List.lookup_cons, beq_false_of_ne same]
        rw [dumpFields] at written
        split at written
        · rw [List.lookup_cons, beq_false_of_ne same] at written
          exact ih written
        · exact ih written

/-- What a document is given if it is not there reads back. -/
theorem readsBack_defaults : ∀ entry ∈ defaults, ∃ field ∈ Kind.document.fields,
    field.key = entry.1 ∧ ∀ value ∈ dumpContent entry.2, ReadsBack again field.shape value := by
  have empty (own : Kind) (plain : own ≠ .document) (single : own ≠ .schema) :
      ∀ value ∈ dumpContent (.one (.empty own)), ReadsBack again (.one own) value := by
    rintro value ⟨⟩
    have writes : own.Writes again (Element.empty own).dump :=
      writes_dump (isShaped_empty own).toIsRegular fun _ member => (List.not_mem_nil member).elim
    refine .object (.inl rfl) plain ?_
    rwa [Kind.loadedFrom, if_neg fun both => single both.1]
  intro entry member
  simp only [defaults, List.mem_cons, List.not_mem_nil, or_false] at member
  rcases member with rfl | rfl | rfl
  · refine ⟨⟨"openapi", .value⟩, by decide, rfl, ?_⟩
    rintro value ⟨⟩
    exact .value rfl rfl
  · exact ⟨⟨"info", .one .info⟩, by decide, rfl, empty .info (by decide) (by decide)⟩
  · exact ⟨⟨"components", .one .components⟩, by decide, rfl,
      empty .components (by decide) (by decide)⟩

/-- A document that does not give an empty name of its format writes that name, and what it says
about itself and its components. -/
theorem isSome_writtenAt?_defaults {loaded : Element} {parts : Parts}
    (json : holdJson entries = true) (distinct : entries.keys.Nodup)
    (version : ∀ value ∈ entries.get? (.string "openapi"),
      value ≠ .string "" ∧ value ≠ .list [] ∧ value ≠ .map [])
    (loads : (loadParts again [] .document entries).outcome = .ok parts)
    (made : loaded = create .document parts.fields parts.extensions)
    (document : loaded.IsDocument) :
    ∀ field ∈ defaults, (loaded.writtenAt? field.1).isSome = true := by
  intro field member
  simp only [defaults, List.mem_cons, List.not_mem_nil, or_false] at member
  rcases member with rfl | rfl | rfl
  · rw [made, writtenAt?, get?_create]
    cases held : parts.fields.lookup "openapi" with
    | none => rfl
    | some content =>
        have known : (⟨"openapi", .value⟩ : Field) ∈ Kind.document.fields := by decide
        obtain ⟨value, found⟩ := exists_of_lookup loads held
        have loaded := lookup_of_loadParts distinct loads known found
        rw [held] at loaded
        have json := isJson_of_mem json (Entries.mem_of_get? found)
        obtain ⟨not_text, not_list, not_map⟩ := version value found
        rcases set_or_null json not_text not_list not_map with set | rfl
        · rw [loadContent_value json set] at loaded
          rw [← Except.ok.inj loaded, Option.some_or, Option.bind_some, dumpContent, set]
          rfl
        · exact (Option.some_ne_none _ (Except.ok.inj loaded).symm).elim
  · obtain ⟨info, held, -⟩ := document.info
    rw [writtenAt?, held]
    rfl
  · obtain ⟨components, held, -⟩ := document.components
    rw [writtenAt?, held]
    rfl

/-- What is written of an element that was loaded from JSON is loaded again, without a notice, and
written as it was: if every reference in the JSON says what it refers to and, for a document, the
name of its format is not empty. -/
theorem load_dump (kind : Kind) {loaded : Element} (json : (Value.map entries).isJson = true)
    (refer : (Value.map entries).refers = true)
    (version : kind = .document → ∀ value ∈ entries.get? (.string "openapi"),
      value ≠ .string "" ∧ value ≠ .list [] ∧ value ≠ .map [])
    (loads : (load kind entries).outcome = .ok loaded) :
    ∃ again, load kind loaded.dump = ⟨.ok again, []⟩ ∧ again.dump = loaded.dump := by
  have ones := loadsOnes_loadAgain maxRounds
  rw [Value.isJson, Bool.and_eq_true, Bool.and_eq_true, decide_eq_true_iff] at json
  obtain ⟨⟨-, distinct⟩, inner⟩ := json
  obtain ⟨parts, parts_load, made⟩ := Reported.outcome_bind_eq_ok.mp loads
  have made := (Except.ok.inj made).symm
  have each := readsBack_of_loadParts ones entries inner refer parts_load
  by_cases plain : kind = .document
  · subst plain
    have document := isDocument_loadMarked distinct loads
    have own (entries : Entries Value) : Kind.document.loadedFrom entries = .document := rfl
    rw [own] at parts_load made each
    have writes : Kind.document.Writes (loadAgain maxRounds) loaded.dump := by
      rw [← document.kind]
      refine writes_dump document.regular fun entry member => ?_
      rw [made, fields_create] at member
      rw [document.kind]
      exact (mem_setDefaults member).elim (each entry) (readsBack_defaults entry)
    obtain ⟨again, again_load, written, fields⟩ := writes.loads
    refine ⟨mk .document again.fields again.extensions, ?_, written⟩
    have set : ∀ field ∈ defaults, (again.fields.lookup field.1).isSome = true := by
      intro field member
      obtain ⟨known, among, same, -⟩ :=
        @readsBack_defaults (loadAgain maxRounds) field member
      have written := isSome_writtenAt?_defaults inner distinct (version rfl) parts_load made
        document field member
      refine isSome_lookup_of_dumpFields ?_
      rw [← same, fields known among, document.regular.get?_dump (document.kind.symm ▸ among), same]
      exact written
    change (loadParts (loadAgain maxRounds) [] .document loaded.dump >>= fun parts => _) = _
    rw [again_load, Reported.pure_bind, own, create_of_set _ set]
    rfl
  · rw [create_of_ne (Kind.loadedFrom_ne_document plain entries)] at made
    have writes := writes_dump (isRegular_of_loadParts distinct parts_load) each
    have own := loadedFrom_dump_of_loadParts inner refer distinct parts_load
    rw [← made] at writes own
    obtain ⟨again, again_load, written, -⟩ := writes.loads
    have kind_eq : loaded.kind = kind.loadedFrom entries := by
      rw [made]
      rfl
    rw [kind_eq] at again_load written
    refine ⟨mk (kind.loadedFrom entries) again.fields again.extensions, ?_, written⟩
    change (loadParts (loadAgain maxRounds) [] (kind.loadedFrom loaded.dump) loaded.dump >>=
      fun parts => pure (create (kind.loadedFrom loaded.dump) parts.fields parts.extensions)) = _
    rw [own, again_load, Reported.pure_bind,
      create_of_ne (Kind.loadedFrom_ne_document plain entries)]
    rfl

/-- A base document with what is not written as it stands: a key that nothing knows, a version that
is not given, tags that hold none, and an extension before everything else. -/
def shelfBase : Entries Value := [
  (.string "x-owner", .string "readers"),
  (.string "openapi", .null),
  (.string "tags", .list []),
  (.string "webhooks", .map []),
  (.string "components", .map [(.string "schemas", .map [
    (.string "Volume", .map [(.string "additionalProperties", .bool false),
      (.string "nullable", .bool false), (.string "type", .string "object")]),
    (.string "Book", .map [(.string "type", .string "object"),
      (.string "$ref", .string "#/components/schemas/Volume")])])])]

/-- What is written of the base document reads back. -/
theorem load_dump_shelfBase : ∃ loaded again, (load .document shelfBase).outcome = .ok loaded ∧
    load .document loaded.dump = ⟨.ok again, []⟩ ∧ again.dump = loaded.dump := by
  have json : (Value.map shelfBase).isJson = true := by decide +kernel
  have refer : (Value.map shelfBase).refers = true := by decide +kernel
  have version : ∀ value ∈ shelfBase.get? (.string "openapi"),
      value ≠ .string "" ∧ value ≠ .list [] ∧ value ≠ .map [] := by
    have given : shelfBase.get? (.string "openapi") = some .null := rfl
    rw [given]
    rintro value ⟨⟩
    exact ⟨nofun, nofun, nofun⟩
  have comes : (load .document shelfBase).outcome.isOk = true := by decide +kernel
  cases loads : (load .document shelfBase).outcome with
  | error => rw [loads] at comes; contradiction
  | ok loaded =>
      obtain ⟨again, reloads, same⟩ := load_dump .document json refer (fun _ => version) loads
      exact ⟨loaded, again, rfl, reloads, same⟩

example : (load .document shelfBase).outcome.toOption.map dump = some [
    (.string "openapi", .string "3.0.3"),
    (.string "info", .map []),
    (.string "components", .map [(.string "schemas", .map [
      (.string "Volume", .map [(.string "type", .string "object"),
        (.string "additionalProperties", .bool false)]),
      (.string "Book", .map [(.string "$ref", .string "#/components/schemas/Volume")])])]),
    (.string "x-owner", .string "readers")] := by rfl

end Element

end ServiceDoc
