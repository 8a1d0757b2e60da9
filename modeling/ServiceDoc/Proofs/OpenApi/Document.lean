import ServiceDoc.Document.Assemble
import ServiceDoc.Proofs.OpenApi.Load

/-!
# Documents and what is merged into them

A document always names its format and has information about itself and components; loading one
adds them if they are missing. Merging a loaded document leaves alone what it says nothing about,
but for the name of the format: that is set even where it was only added.
-/

namespace ServiceDoc

namespace Element

/-- An element is a document: it has information about itself and components. -/
structure IsDocument (element : Element) : Prop where
  kind : element.kind = .document
  regular : element.IsRegular
  /-- The information about the document. -/
  info : ∃ info, element.get? "info" = some (.one info) ∧ info.kind = .info
  components : ∃ components,
    element.get? "components" = some (.one components) ∧ components.kind = .components

variable {element other document loaded : Element} {way : List Nat} {key : String}
  {entries : Entries Value}

/-! ## Loading -/

/-- What a document is given if it is not there. -/
def defaults : List (String × Content) := [
  ("openapi", .value (.string openapiVersion)), ("info", .one (.empty .info)),
  ("components", .one (.empty .components))]

/-- Set fields that are not set. -/
def setDefaults (fields given : List (String × Content)) : List (String × Content) :=
  given.foldl (fun fields field => setDefault fields field.1 field.2) fields

theorem fields_create (fields : List (String × Content)) (extensions : Entries Value) :
    (create .document fields extensions).fields = setDefaults fields defaults := rfl

theorem extensions_create (fields : List (String × Content)) (extensions : Entries Value) :
    (create .document fields extensions).extensions = extensions := rfl

variable {fields given : List (String × Content)}

theorem lookup_setDefaults :
    (setDefaults fields given).lookup key = (fields.lookup key).or (given.lookup key) := by
  unfold setDefaults
  induction given generalizing fields with
  | nil => exact (Option.or_none).symm
  | cons field rest ih =>
      obtain ⟨name, content⟩ := field
      have first : (setDefault fields name content).lookup key =
          (fields.lookup key).or (List.lookup key [(name, content)]) := by
        unfold setDefault
        split
        · next set =>
            by_cases same : key = name
            · subst same
              rw [Option.or_of_isSome set]
            · rw [List.lookup_cons, beq_false_of_ne same]
              exact (Option.or_none).symm
        · exact List.lookup_append
      rw [List.foldl_cons, ih, first, Option.or_assoc, ← List.lookup_append]
      rfl

theorem nodup_setDefaults (distinct : (fields.map Prod.fst).Nodup) :
    ((setDefaults fields given).map Prod.fst).Nodup := by
  unfold setDefaults
  induction given generalizing fields with
  | nil => exact distinct
  | cons field rest ih =>
      refine ih ?_
      change ((setDefault fields field.1 field.2).map Prod.fst).Nodup
      unfold setDefault
      split
      · exact distinct
      · next unset =>
          rw [List.map_append]
          refine distinct.append (List.nodup_singleton _) (List.disjoint_singleton.mpr ?_)
          intro member
          obtain ⟨other, inside, same⟩ := List.mem_map.mp member
          have missing :=
            List.lookup_eq_none_iff.mp (Option.not_isSome_iff_eq_none.mp unset) other inside
          simp [same] at missing

theorem mem_setDefaults {field : String × Content} (member : field ∈ setDefaults fields given) :
    field ∈ fields ∨ field ∈ given := by
  unfold setDefaults at member
  induction given generalizing fields with
  | nil => exact .inl member
  | cons first rest ih =>
      rcases ih member with old | new
      · change field ∈ setDefault fields first.1 first.2 at old
        unfold setDefault at old
        split at old
        · exact .inl old
        · refine (List.mem_append.mp old).imp_right fun new => ?_
          rw [List.mem_singleton.mp new]
          exact .head _
      · exact .inr (.tail _ new)

theorem get?_create (fields : List (String × Content)) (extensions : Entries Value) :
    (create .document fields extensions).get? key =
      (fields.lookup key).or (defaults.lookup key) := by
  rw [get?, fields_create, lookup_setDefaults]

/-- What is loaded in the place of a document is a document. -/
theorem isDocument_create {again : ContentLoader} (ones : again.LoadsOnes)
    {around : Value.Surroundings} {parts : Parts} (distinct : entries.keys.Nodup)
    (loads : (loadParts again around .document entries).outcome = .ok parts) :
    (create .document parts.fields parts.extensions).IsDocument := by
  have regular := isRegular_of_loadParts distinct loads
  have holds := forall_fields_of_loadParts (fun field _ value content inner =>
    show ∀ kind, field.shape = .one kind → ∃ element, content = .one element ∧
        kind.Admits element.kind from fun kind shape => by
      rw [shape] at inner
      obtain ⟨element, made, admitted⟩ := loadsOnes_loadContent ones around _ kind value _ inner
      exact ⟨element, Option.some.inj made, admitted⟩) loads
  have one (name : String) (kind : Kind) (known : (⟨name, .one kind⟩ : Field) ∈ Kind.document.fields)
      (plain : kind ≠ .schema) (default : defaults.lookup name = some (.one (.empty kind))) :
      ∃ element, (create .document parts.fields parts.extensions).get? name = some (.one element) ∧
        element.kind = kind := by
    rw [get?_create, default]
    cases found : parts.fields.lookup name with
    | none => exact ⟨_, rfl, rfl⟩
    | some content =>
        obtain ⟨field, among, named, loaded⟩ := holds _ (mem_of_lookup found)
        have same := (Kind.field?_eq_some_iff.mpr ⟨among, named⟩).symm.trans
          (Kind.field?_eq_some_iff.mpr ⟨known, rfl⟩)
        obtain ⟨element, rfl, admitted⟩ := loaded kind (by rw [Option.some.inj same])
        exact ⟨element, rfl, admitted.resolve_right fun schema => plain schema.1⟩
  exact {
    kind := rfl
    regular := {
      distinct := by
        rw [fields_create]
        exact nodup_setDefaults regular.distinct
      extensions_distinct := by
        rw [extensions_create]
        exact regular.extensions_distinct
      extended := by
        rw [extensions_create]
        exact regular.extended }
    info := one "info" .info (by decide) (by decide) rfl
    components := one "components" .components (by decide) (by decide) rfl }

/-- Loading a document gives the parts of its mapping, and what was missing. -/
theorem loadMarked_document {mark : Mark}
    (loads : (loadMarked .document mark entries).outcome = .ok loaded) :
    ∃ around parts, (loadParts (loadAgain maxRounds) around .document entries).outcome = .ok parts ∧
      loaded = create .document parts.fields parts.extensions := by
  obtain ⟨parts, inner, made⟩ := Reported.outcome_bind_eq_ok.mp loads
  exact ⟨_, parts, inner, (Except.ok.inj made).symm⟩

/-- Whatever is loaded as a document is one. -/
theorem isDocument_loadMarked {mark : Mark} (distinct : entries.keys.Nodup)
    (loads : (loadMarked .document mark entries).outcome = .ok loaded) : loaded.IsDocument := by
  obtain ⟨around, parts, inner, rfl⟩ := loadMarked_document loads
  exact isDocument_create (loadsOnes_loadAgain maxRounds) distinct inner

/-! ## Merging -/

/-- An element stays what it is under one that holds nothing. -/
theorem mergeAt_empty (element : Element) (way : List Nat) (kind : Kind) :
    element.mergeAt way (.empty kind) = element := by
  obtain ⟨kind, fields, extensions⟩ := element
  rfl

theorem get?_mergeAt (element : Element) (way : List Nat) {content : Content}
    (regular : other.IsRegular)
    (given : other.get? key = some content) : ∃ inside, (element.mergeAt way other).get? key =
      some (mergeContent inside (element.get? key) content) := by
  rw [get?, fields_mergeAt]
  exact lookup_mergeFields regular.distinct given

/-- A document over which another one is laid is a document. -/
theorem IsDocument.mergeAt (document : element.IsDocument) (upper : other.IsDocument) :
    (element.mergeAt way other).IsDocument := by
  have one (name : String) (kind : Kind)
      (below : ∃ inner, element.get? name = some (.one inner) ∧ inner.kind = kind)
      (above : ∃ inner, other.get? name = some (.one inner) ∧ inner.kind = kind) :
      ∃ inner, (element.mergeAt way other).get? name = some (.one inner) ∧ inner.kind = kind := by
    obtain ⟨old, holds, old_kind⟩ := below
    obtain ⟨new, given, new_kind⟩ := above
    obtain ⟨inside, merged⟩ := get?_mergeAt element way upper.regular given
    rw [holds, mergeContent, if_pos (old_kind.trans new_kind.symm)] at merged
    exact ⟨_, merged, kind_mergeAt.trans old_kind⟩
  exact {
    kind := kind_mergeAt.trans document.kind
    regular := document.regular.mergeAt upper.regular.extended
    info := one "info" .info document.info upper.info
    components := one "components" .components document.components upper.components }

/-- What a document is given if it is not there leaves a document as it is, but for the name of the
format. -/
theorem IsDocument.kept (document : element.IsDocument) (other_key : key ≠ "openapi")
    {content : Content} (given : (key, content) ∈ defaults) : ∃ held,
      element.get? key = some held ∧ ∀ way, mergeContent way (some held) content = held := by
  have one {kind : Kind} (inside : ∃ inner, element.get? key = some (.one inner) ∧ inner.kind = kind) :
      ∃ held, element.get? key = some held ∧
        ∀ way, mergeContent way (some held) (.one (.empty kind)) = held := by
    obtain ⟨inner, holds, rfl⟩ := inside
    refine ⟨.one inner, holds, fun way => ?_⟩
    rw [mergeContent, if_pos (show inner.kind = (empty inner.kind).kind from rfl), mergeAt_empty]
  simp only [defaults, List.mem_cons, List.not_mem_nil, or_false, Prod.mk.injEq] at given
  rcases given with ⟨rfl, -⟩ | ⟨rfl, rfl⟩ | ⟨rfl, rfl⟩
  · exact (other_key rfl).elim
  · exact one document.info
  · exact one document.components

/-- Merging what is loaded into a document sets the name of the format to the usual one, if it is
not given, and leaves everything else as it is that is not given. -/
theorem get?_dump_merge_of_absent (complete : document.IsDocument) (distinct : entries.keys.Nodup)
    (loads : (Element.load .document entries).outcome = .ok loaded) {key : Scalar}
    (absent : key ∉ entries.keys) :
    Entries.get? (document.merge loaded).dump key =
      if key = .string "openapi" then some (.string openapiVersion)
      else Entries.get? document.dump key := by
  have upper := isDocument_loadMarked distinct loads
  obtain ⟨around, parts, inner, rfl⟩ := loadMarked_document loads
  have merged : (document.merge _).IsDocument := complete.mergeAt upper
  have unset (field : Field) (same : key = .string field.key) (content : Content) :
      (field.key, content) ∉ parts.fields := fun member =>
    absent ((keys_of_loadParts inner).subset (List.mem_map.mpr ⟨_, member, same.symm⟩))
  by_cases known : ∃ field ∈ Kind.document.fields, key = .string field.key
  · obtain ⟨field, member, rfl⟩ := known
    rw [merged.regular.get?_dump (by rwa [merged.kind]),
      complete.regular.get?_dump (by rwa [complete.kind])]
    by_cases version : field.key = "openapi"
    · have unnamed : parts.fields.lookup field.key = none :=
        List.lookup_eq_none_iff.mpr fun entry member => bne_iff_ne.mpr fun same =>
          unset field rfl entry.2 (same ▸ member)
      have given : (create .document parts.fields parts.extensions).get? field.key =
          some (.value (.string openapiVersion)) := by
        rw [get?_create, unnamed, version]
        rfl
      obtain ⟨inside, named⟩ := get?_mergeAt document [] upper.regular given
      rw [version, if_pos rfl, ← version, writtenAt?, merge, named]
      rfl
    · rw [if_neg fun same => version (Scalar.string.inj same)]
      refine congrArg (Option.bind · dumpContent) ?_
      rw [get?, merge, fields_mergeAt, fields_create]
      refine lookup_mergeFields_of_kept fun content given => ?_
      rcases mem_setDefaults given with loaded | default
      · exact (unset field rfl content loaded).elim
      · exact complete.kept version default
  · have unknown : ∀ field ∈ Kind.document.fields, key ≠ .string field.key :=
      fun field member same => known ⟨field, member, same⟩
    rw [if_neg (unknown ⟨"openapi", .value⟩ (by decide)),
      merged.regular.get?_dump_of_ne (by rwa [merged.kind]),
      complete.regular.get?_dump_of_ne (by rwa [complete.kind]), merge, extensions_mergeAt]
    refine Entries.get?_putAll_of_notMem ?_
    rw [keys_stampedEntries upper.regular.extended, extensions_create,
      keys_extensions_of_loadParts inner, Entries.mem_keys_extended]
    exact fun member => absent member.1

/-- A base document that follows a later version of the format. -/
def laterBase : Entries Value := [
  (.string "openapi", .string "3.1.0"),
  (.string "info", .map [(.string "title", .string "Library"), (.string "version", .string "2")]),
  (.string "x-owner", .string "readers")]

/-- What an annotation says that names a tag alone. -/
def booksTag : Entries Value :=
  [(.string "tags", .list [.map [(.string "name", .string "Books")]])]

/-- A tag is merged into a base document whose title stays. -/
theorem tag_keeps_title : ∃ document loaded,
    (Element.load .document laterBase).outcome = .ok document ∧
    (Element.load .document booksTag).outcome = .ok loaded ∧
    Entries.get? (document.merge loaded).dump (.string "info") =
      Entries.get? document.dump (.string "info") := by
  have distinct : laterBase.keys.Nodup ∧ booksTag.keys.Nodup := by decide
  have absent : Scalar.string "info" ∉ booksTag.keys := by decide
  refine ⟨_, _, rfl, rfl, ?_⟩
  exact get?_dump_merge_of_absent (isDocument_loadMarked distinct.1 rfl) distinct.2 rfl absent

/-- The name of the format is replaced, though the annotation does not say it. -/
theorem tag_replaces_version : ∃ document loaded,
    (Element.load .document laterBase).outcome = .ok document ∧
    (Element.load .document booksTag).outcome = .ok loaded ∧
    Scalar.string "openapi" ∉ booksTag.keys ∧
    Entries.get? (document.merge loaded).dump (.string "openapi") = some (.string "3.0.3") ∧
    Entries.get? document.dump (.string "openapi") = some (.string "3.1.0") :=
  ⟨_, _, rfl, rfl, by decide, rfl, rfl⟩

end Element

end ServiceDoc
