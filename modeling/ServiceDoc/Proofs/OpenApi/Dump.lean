import ServiceDoc.OpenApi.Dump
import ServiceDoc.OpenApi.Load
import ServiceDoc.OpenApi.Merge
import ServiceDoc.Proofs.OpenApi.Fields
import ServiceDoc.Proofs.Value.Entries

/-!
# What stands under the keys of an element

An element without a field or an extension set twice is written key by key: what stands under the
key of a field is what the field holds, and the extensions follow. Merging does not set anything
twice, and changes what stands under a key by what is merged there.
-/

namespace ServiceDoc

/-- A key is that of an extension. -/
def Scalar.isExtension : Scalar → Bool
  | .string key => isExtensionKey key
  | .surrogates codes => codes.take 2 = [120, 45]
  | _ => false

/-- The entries of extensions. -/
def Entries.extended (entries : Entries Value) : Entries Value :=
  entries.filter fun entry => entry.1.isExtension

theorem Entries.extended_cons {entry : Scalar × Value} {entries : Entries Value} :
    extended (entry :: entries) =
      if entry.1.isExtension then entry :: entries.extended else entries.extended :=
  List.filter_cons

theorem Entries.mem_keys_extended {entries : Entries Value} {key : Scalar} :
    key ∈ entries.extended.keys ↔ key ∈ entries.keys ∧ key.isExtension = true := by
  simp only [keys, extended, List.mem_map, List.mem_filter]
  constructor
  · rintro ⟨entry, ⟨member, extension⟩, rfl⟩
    exact ⟨⟨entry, member, rfl⟩, extension⟩
  · rintro ⟨⟨entry, member, rfl⟩, extension⟩
    exact ⟨entry, ⟨member, extension⟩, rfl⟩

theorem Entries.nodup_keys_extended {entries : Entries Value} (distinct : entries.keys.Nodup) :
    entries.extended.keys.Nodup :=
  distinct.sublist (List.filter_sublist.map Prod.fst)

theorem isExtensionKey_iff {key : String} :
    isExtensionKey key = true ↔ key.toList.take 2 = ['x', '-'] := by
  unfold isExtensionKey
  split
  · next starts => simp [starts]
  · next differs =>
      refine iff_of_false Bool.false_ne_true fun same => ?_
      rcases spelled : key.toList with _ | ⟨first, _ | ⟨second, rest⟩⟩ <;>
        simp_all

namespace Kind

variable {kind : Kind} {field : Field} {key : String}

/-- The key of a field is no extension. -/
theorem isExtension_of_mem_fields (member : field ∈ kind.fields) :
    (Scalar.string field.key).isExtension = false :=
  Bool.eq_false_iff.mpr fun extension =>
    kind.fields_not_extension field member (isExtensionKey_iff.mp extension)

theorem field?_eq_some_iff :
    kind.field? key = some field ↔ field ∈ kind.fields ∧ field.key = key := by
  constructor
  · intro found
    exact ⟨List.mem_of_find?_eq_some found, by simpa using List.find?_some found⟩
  · rintro ⟨member, rfl⟩
    cases found : kind.field? field.key with
    | none =>
        have unlike := List.find?_eq_none.mp found field member
        simp at unlike
    | some other =>
        have same : other.key = field.key := by simpa using List.find?_some found
        rw [List.inj_on_of_nodup_map kind.fields_nodup (List.mem_of_find?_eq_some found) member same]

/-- The entries of the fields of a kind that have a value, in the order of the kind. -/
def tabulate (kind : Kind) (value : String → Option Value) : Entries Value :=
  kind.fields.filterMap fun field =>
    (value field.key).map fun value => (.string field.key, value)

variable {value : String → Option Value}

theorem mem_keys_tabulate {key : Scalar} (member : key ∈ (kind.tabulate value).keys) :
    ∃ field ∈ kind.fields, key = .string field.key := by
  obtain ⟨entry, inside, rfl⟩ := List.mem_map.mp member
  obtain ⟨field, known, set⟩ := List.mem_filterMap.mp inside
  obtain ⟨value, -, rfl⟩ := Option.map_eq_some_iff.mp set
  exact ⟨field, known, rfl⟩

theorem isExtension_of_mem_tabulate {key : Scalar} (member : key ∈ (kind.tabulate value).keys) :
    key.isExtension = false := by
  obtain ⟨field, known, rfl⟩ := mem_keys_tabulate member
  exact isExtension_of_mem_fields known

theorem nodup_keys_tabulate : (kind.tabulate value).keys.Nodup := by
  have distinct : (kind.fields.map fun field => Scalar.string field.key).Nodup := by
    have named := kind.fields_nodup.map fun _ _ => Scalar.string.inj
    rwa [List.map_map] at named
  refine distinct.sublist ?_
  unfold tabulate Entries.keys
  induction kind.fields with
  | nil => exact .slnil
  | cons field rest ih =>
      cases given : value field.key with
      | none =>
          rw [List.filterMap_cons_none (by rw [given]; rfl)]
          exact ih.cons _
      | some held =>
          rw [List.filterMap_cons_some (by rw [given]; rfl)]
          exact ih.cons_cons _

/-- What stands under the key of a field is its value. -/
theorem get?_tabulate : (kind.tabulate value).get? (.string key) =
    (kind.field? key).bind fun _ => value key := by
  unfold tabulate field?
  induction kind.fields with
  | nil => rfl
  | cons first rest ih =>
      by_cases same : first.key = key
      · subst same
        simp only [List.find?_cons, beq_self_eq_true, Option.bind_some]
        cases held : value first.key with
        | none =>
            rw [List.filterMap_cons_none (by rw [held]; rfl), ih, held]
            cases rest.find? fun field => field.key == first.key <;> rfl
        | some given =>
            rw [List.filterMap_cons_some (by rw [held]; rfl), Entries.get?_cons, if_pos rfl]
      · rw [List.find?_cons_of_neg (by simpa using same), ← ih]
        cases held : value first.key with
        | none => rw [List.filterMap_cons_none (by rw [held]; rfl)]
        | some given =>
            rw [List.filterMap_cons_some (by rw [held]; rfl), Entries.get?_cons, if_neg]
            exact fun equal => same (Scalar.string.inj equal)

end Kind

/-! ## Writing -/

theorem lookup_dumpFields {fields : List (String × Content)} {key : String}
    (distinct : (fields.map Prod.fst).Nodup) :
    (dumpFields fields).lookup key = (fields.lookup key).bind dumpContent := by
  induction fields with
  | nil => rfl
  | cons field rest ih =>
      obtain ⟨name, content⟩ := field
      obtain ⟨unlike, later⟩ := List.nodup_cons.mp distinct
      by_cases same : key = name
      · subst same
        have absent : rest.lookup key = none := by
          refine List.lookup_eq_none_iff.mpr fun entry member => bne_iff_ne.mpr ?_
          exact fun same => unlike (List.mem_map.mpr ⟨entry, member, same.symm⟩)
        rw [List.lookup_cons_self, Option.bind_some, dumpFields]
        cases written : dumpContent content with
        | none => exact (ih later).trans (congrArg (Option.bind · dumpContent) absent)
        | some value => exact List.lookup_cons_self
      · have differ : (key == name) = false := beq_false_of_ne same
        rw [List.lookup_cons, differ, dumpFields]
        cases dumpContent content with
        | none => exact ih later
        | some value => exact (List.lookup_cons.trans (by rw [differ])).trans (ih later)

namespace Element

/-- What is written for the field of a key. -/
def writtenAt? (element : Element) (key : String) : Option Value :=
  (element.get? key).bind dumpContent

/-- No field and no extension is set twice, and extensions have keys of their own. -/
structure IsRegular (element : Element) : Prop where
  distinct : (element.fields.map Prod.fst).Nodup
  /-- The keys of extensions differ. -/
  extensions_distinct : element.extensions.keys.Nodup
  extended : ∀ key ∈ element.extensions.keys, key.isExtension = true

variable {element : Element} {key : String}

/-- The extensions of an element are laid over its fields. -/
theorem dump_of_distinct (distinct : (element.fields.map Prod.fst).Nodup) :
    element.dump = Entries.putAll (element.kind.tabulate element.writtenAt?) element.extensions := by
  obtain ⟨kind, fields, extensions⟩ := element
  have arranged : kind.arrange (dumpFields fields) =
      kind.tabulate (Element.mk kind fields extensions).writtenAt? :=
    List.filterMap_congr fun field _ => congrArg (Option.map _) (lookup_dumpFields distinct)
  rw [dump, arranged]
  rfl

/-- An element is written field by field, its extensions last. -/
theorem IsRegular.dump_eq (regular : element.IsRegular) :
    element.dump = element.kind.tabulate element.writtenAt? ++ element.extensions := by
  rw [dump_of_distinct regular.distinct]
  refine Entries.putAll_of_disjoint regular.extensions_distinct fun key member inside => ?_
  have extension := regular.extended key member
  rw [Kind.isExtension_of_mem_tabulate inside] at extension
  contradiction

/-- No key is written twice. -/
theorem nodup_keys_dump (distinct : (element.fields.map Prod.fst).Nodup) :
    (Entries.keys element.dump).Nodup := by
  rw [dump_of_distinct distinct]
  exact Entries.nodup_keys_putAll Kind.nodup_keys_tabulate

/-- What is written under a key is the last extension of that key, or else the field of that key. -/
theorem get?_dump {key : Scalar} (distinct : (element.fields.map Prod.fst).Nodup) :
    Entries.get? element.dump key = (Entries.get? element.extensions.reverse key).or
      (Entries.get? (element.kind.tabulate element.writtenAt?) key) := by
  rw [dump_of_distinct distinct, Entries.get?_putAll]

/-- Setting a field changes what is written under its key, and no other field. -/
theorem get?_tabulate_set {field : Field} {content : Content} {key : Scalar}
    (known : field ∈ element.kind.fields) :
    Entries.get? (element.kind.tabulate (element.set field.key content).writtenAt?) key =
      if key = .string field.key then dumpContent content
      else Entries.get? (element.kind.tabulate element.writtenAt?) key := by
  by_cases named : ∃ other ∈ element.kind.fields, key = .string other.key
  · obtain ⟨other, among, rfl⟩ := named
    simp only [Kind.get?_tabulate, Kind.field?_eq_some_iff.mpr ⟨among, rfl⟩, Option.bind_some,
      writtenAt?, get?_set, Scalar.string.injEq]
    split <;> rfl
  · have unlike (value : String → Option Value) :
        Entries.get? (element.kind.tabulate value) key = none :=
      Entries.get?_eq_none_iff.mpr fun member => named (Kind.mem_keys_tabulate member)
    rw [unlike, unlike, if_neg fun same => named ⟨field, known, same⟩]

/-- What stands under the key of a field is what is written for it. -/
theorem IsRegular.get?_dump (regular : element.IsRegular) {field : Field}
    (known : field ∈ element.kind.fields) :
    Entries.get? element.dump (.string field.key) = element.writtenAt? field.key := by
  have absent : Scalar.string field.key ∉ element.extensions.keys := fun member => by
    have extension := regular.extended _ member
    rw [Kind.isExtension_of_mem_fields known] at extension
    contradiction
  rw [regular.dump_eq, Entries.get?_append, Entries.get?_eq_none_iff.mpr absent, Option.or_none,
    Kind.get?_tabulate, Kind.field?_eq_some_iff.mpr ⟨known, rfl⟩, Option.bind_some]

/-- What stands under any other key is an extension. -/
theorem IsRegular.get?_dump_of_ne (regular : element.IsRegular) {key : Scalar}
    (unknown : ∀ field ∈ element.kind.fields, key ≠ .string field.key) :
    Entries.get? element.dump key = element.extensions.get? key := by
  have absent : key ∉ (element.kind.tabulate element.writtenAt?).keys := fun member => by
    obtain ⟨field, known, same⟩ := Kind.mem_keys_tabulate member
    exact unknown field known same
  rw [regular.dump_eq, Entries.get?_append, Entries.get?_eq_none_iff.mpr absent, Option.none_or]

end Element

/-! ## Merging -/

namespace Element

theorem mem_keys_setField {fields : List (String × Content)} {key other : String}
    {content : Content} :
    other ∈ (setField fields key content).map Prod.fst ↔
      other = key ∨ other ∈ fields.map Prod.fst := by
  induction fields with
  | nil => simp [setField]
  | cons field rest ih =>
      obtain ⟨name, old⟩ := field
      by_cases same : name = key
      · subst same
        simp [setField]
      · rw [setField, if_neg same, List.map_cons, List.map_cons, List.mem_cons, List.mem_cons, ih]
        exact or_left_comm

theorem nodup_setField {fields : List (String × Content)} {key : String} {content : Content}
    (distinct : (fields.map Prod.fst).Nodup) :
    ((setField fields key content).map Prod.fst).Nodup := by
  induction fields with
  | nil => exact List.nodup_singleton key
  | cons field rest ih =>
      obtain ⟨name, old⟩ := field
      obtain ⟨fresh, later⟩ := List.nodup_cons.mp distinct
      by_cases same : name = key
      · rw [setField, if_pos same]
        exact List.nodup_cons.mpr ⟨same ▸ fresh, later⟩
      · rw [setField, if_neg same]
        refine List.nodup_cons.mpr ⟨fun member => ?_, ih later⟩
        exact (mem_keys_setField.mp member).elim same fresh

end Element

section Merge

variable {way : List Nat} {position : Nat} {current fields : List (String × Content)}
  {key : String}

theorem nodup_mergeFields (distinct : (current.map Prod.fst).Nodup) :
    ((mergeFields way position current fields).map Prod.fst).Nodup := by
  induction fields generalizing current position with
  | nil => exact distinct
  | cons field rest ih => exact ih (Element.nodup_setField distinct)

/-- A field keeps what it holds if what is merged there leaves that as it is. -/
theorem lookup_mergeFields_of_kept (kept : ∀ content, (key, content) ∈ fields →
      ∃ held, current.lookup key = some held ∧ ∀ way, mergeContent way held content = held) :
    (mergeFields way position current fields).lookup key = current.lookup key := by
  induction fields generalizing current position with
  | nil => rfl
  | cons field rest ih =>
      obtain ⟨name, content⟩ := field
      by_cases same : name = key
      · subst same
        obtain ⟨held, holds, stays⟩ := kept content (.head _)
        rw [mergeFields, holds, stays, Element.setField_of_lookup holds]
        exact (ih fun content member => kept content (.tail _ member)).trans holds
      · have unchanged (merged : Content) :
            (Element.setField current name merged).lookup key = current.lookup key :=
          Element.lookup_setField_of_ne current merged (Ne.symm same)
        rw [mergeFields, ih, unchanged]
        rw [unchanged]
        exact fun content member => kept content (.tail _ member)

/-- A field that nothing is merged into keeps what it holds. -/
theorem lookup_mergeFields_of_notMem (absent : key ∉ fields.map Prod.fst) :
    (mergeFields way position current fields).lookup key = current.lookup key :=
  lookup_mergeFields_of_kept fun _ member => (absent (List.mem_map_of_mem member)).elim

/-- What is merged into a field is laid over what it holds. -/
theorem lookup_mergeFields {content : Content} (distinct : (fields.map Prod.fst).Nodup)
    (given : fields.lookup key = some content) :
    ∃ way', (mergeFields way position current fields).lookup key =
      some (mergeContent way' (current.lookup key) content) := by
  induction fields generalizing current position with
  | nil => contradiction
  | cons field rest ih =>
      obtain ⟨name, first⟩ := field
      obtain ⟨unlike, later⟩ := List.nodup_cons.mp distinct
      by_cases same : key = name
      · subst same
        rw [List.lookup_cons_self] at given
        obtain rfl := Option.some.inj given
        refine ⟨way ++ [position], ?_⟩
        rw [mergeFields, lookup_mergeFields_of_notMem unlike, Element.lookup_setField_self]
      · rw [List.lookup_cons, beq_false_of_ne same] at given
        obtain ⟨way', merged⟩ := ih later given
        refine ⟨way', ?_⟩
        rw [mergeFields, merged, Element.lookup_setField_of_ne current _ same]

end Merge

/-- Stamping leaves the keys of extensions as they are. -/
theorem keys_stampedEntries {stamp : Mark} {entries : Entries Value}
    (extended : ∀ key ∈ entries.keys, key.isExtension = true) :
    Entries.keys (Value.stampedEntries stamp entries) = entries.keys := by
  induction entries with
  | nil => rfl
  | cons entry rest ih =>
      obtain ⟨key, value⟩ := entry
      have same : key.stamped stamp = key := by
        cases key with
        | date => exact (Bool.false_ne_true (extended _ (.head _))).elim
        | timestamp => exact (Bool.false_ne_true (extended _ (.head _))).elim
        | _ => rfl
      have later := ih fun key member => extended key (.tail _ member)
      unfold Entries.keys at later ⊢
      rw [Value.stampedEntries, List.map_cons, List.map_cons, later, same]

namespace Element

variable {element other : Element} {way : List Nat}

theorem kind_mergeAt : (element.mergeAt way other).kind = element.kind := by
  obtain ⟨kind, fields, extensions⟩ := other
  rfl

theorem fields_mergeAt :
    (element.mergeAt way other).fields = mergeFields way 0 element.fields other.fields := by
  obtain ⟨kind, fields, extensions⟩ := other
  rfl

theorem extensions_mergeAt : (element.mergeAt way other).extensions =
    element.extensions.putAll (Value.stampedEntries (stampOf way) other.extensions) := by
  obtain ⟨kind, fields, extensions⟩ := other
  rfl

theorem IsRegular.mergeAt (regular : element.IsRegular)
    (extended : ∀ key ∈ other.extensions.keys, key.isExtension = true) :
    (element.mergeAt way other).IsRegular where
  distinct := by
    rw [fields_mergeAt]
    exact nodup_mergeFields regular.distinct
  extensions_distinct := by
    rw [extensions_mergeAt]
    exact Entries.nodup_keys_putAll regular.extensions_distinct
  extended := by
    intro key member
    rw [extensions_mergeAt, Entries.mem_keys_putAll, keys_stampedEntries extended] at member
    exact member.elim (regular.extended key) (extended key)

end Element

end ServiceDoc
