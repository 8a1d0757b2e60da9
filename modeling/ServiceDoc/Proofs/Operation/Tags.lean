import ServiceDoc.Operation.Share
import ServiceDoc.Proofs.OpenApi.Reload
import ServiceDoc.Proofs.Value.Text

/-!
# Tags that become extensions

A tag `key=value` becomes an extension, and extensions are laid over the fields of an operation when
it is written. So such a tag leaves the fields alone as long as its key is that of an extension, but
a tag with the key of a field takes the place of the field.
-/

namespace ServiceDoc

/-! ## Loading without a notice -/

namespace Reported

variable {ε α β : Type} {first : Reported ε α} {next : α → Reported ε β} {value : α}
  {result : β}

theorem eq_pure_iff : first = pure value ↔ first.outcome = .ok value ∧ first.notices = [] := by
  obtain ⟨outcome, notices⟩ := first
  exact Reported.mk.injEq .. ▸ Iff.rfl

/-- Two steps give no notice if neither does. -/
theorem bind_eq_pure_iff : first >>= next = pure result ↔
    ∃ value, first = pure value ∧ next value = pure result := by
  constructor
  · intro given
    obtain ⟨outcome, silent⟩ := eq_pure_iff.mp given
    obtain ⟨value, gives, later⟩ := outcome_bind_eq_ok.mp outcome
    have notices : (first >>= next).notices = first.notices ++ (next value).notices := by
      change (andThen first next).notices = _
      rw [andThen, gives]
    obtain ⟨none, none_later⟩ := List.append_eq_nil_iff.mp (notices.symm.trans silent)
    exact ⟨value, eq_pure_iff.mpr ⟨gives, none⟩, eq_pure_iff.mpr ⟨later, none_later⟩⟩
  · rintro ⟨value, rfl, given⟩
    exact given

/-- A change of what is given gives no notice. -/
theorem map_silent_iff (change : α → β) :
    (∃ result, (first >>= fun value => pure (change value)) = pure result) ↔
      ∃ value, first = pure value := by
  constructor
  · rintro ⟨result, given⟩
    obtain ⟨value, silent, -⟩ := bind_eq_pure_iff.mp given
    exact ⟨value, silent⟩
  · rintro ⟨value, rfl⟩
    exact ⟨change value, rfl⟩

end Reported

/-- A value is loaded without a notice into the field of a key, unless the key is one of an
extension. -/
def LoadsSilently (again : ContentLoader) (kind : Kind) (key : Scalar) (value : Value) : Prop :=
  key.isExtension = true ∨ ∃ field ∈ kind.fields, key = .string field.key ∧ ∃ content,
    loadContent again [] (Text.codes field.key) field.shape value = pure content

section Loading

variable {again : ContentLoader} {kind : Kind}

/-- A key that is refused or unknown belongs neither to an extension nor to a field. -/
theorem not_loadsSilently {key : Scalar} {value : Value}
    (plain : ¬key.isExtension = true)
    (unlike : ∀ field ∈ kind.fields, key ≠ .string field.key) :
    ¬LoadsSilently again kind key value := by
  rintro (extension | ⟨field, known, named, -⟩)
  · exact plain extension
  · exact unlike field known named

theorem loadParts_cons_silent_iff {key : Scalar} {value : Value} {rest : Entries Value} :
    (∃ parts, loadParts again [] kind ((key, value) :: rest) = pure parts) ↔
      LoadsSilently again kind key value ∧ ∃ parts, loadParts again [] kind rest = pure parts := by
  rw [loadParts]
  cases role : kind.role key with
  | error error =>
      refine iff_of_false ?_ fun both => not_loadsSilently ?_ ?_ both.1
      · rintro ⟨parts, given⟩
        cases congrArg Reported.outcome given
      · intro extension
        cases role.symm.trans (Kind.role_of_isExtension extension)
      · rintro field known rfl
        cases role.symm.trans (Kind.role_of_mem_fields known)
  | ok found =>
      rw [show Reported.ofExcept (.ok found) = (pure found : Loading EntryRole) from rfl,
        Reported.pure_bind]
      cases found with
      | extension =>
          rw [and_iff_right (.inl (Kind.role_eq_extension role))]
          exact Reported.map_silent_iff _
      | unknown =>
          obtain ⟨plain, unlike⟩ := Kind.role_eq_unknown role
          refine iff_of_false ?_ fun both => not_loadsSilently ?_ ?_ both.1
          · rintro ⟨parts, given⟩
            obtain ⟨_, told, -⟩ := Reported.bind_eq_pure_iff.mp given
            cases congrArg Reported.notices told
          · exact fun extension => Bool.false_ne_true (plain.symm.trans extension)
          · exact unlike
      | field field =>
          obtain ⟨known, rfl⟩ := Kind.role_eq_field role
          constructor
          · rintro ⟨parts, given⟩
            obtain ⟨content, loads, given⟩ := Reported.bind_eq_pure_iff.mp given
            obtain ⟨others, later, -⟩ := Reported.bind_eq_pure_iff.mp given
            exact ⟨.inr ⟨field, known, rfl, content, loads⟩, others, later⟩
          · rintro ⟨own, parts, later⟩
            rcases own with extension | ⟨other, among, same, content, loads⟩
            · cases (Kind.isExtension_of_mem_fields known).symm.trans extension
            · -- The keys of the fields of a kind differ, so the key names one field.
              obtain rfl := List.inj_on_of_nodup_map kind.fields_nodup known among
                (Scalar.string.inj same)
              dsimp only
              rw [loads, Reported.pure_bind, later, Reported.pure_bind]
              cases content <;> exact ⟨_, rfl⟩

/-- Entries are loaded without a notice exactly if each is an extension or belongs to a field, whose
value is loaded without a notice. -/
theorem loadParts_silent_iff {entries : Entries Value} :
    (∃ parts, loadParts again [] kind entries = pure parts) ↔
      ∀ entry ∈ entries, LoadsSilently again kind entry.1 entry.2 := by
  induction entries with
  | nil => exact iff_of_true ⟨{}, rfl⟩ fun _ member => (List.not_mem_nil member).elim
  | cons entry rest ih => rw [List.forall_mem_cons, ← ih, loadParts_cons_silent_iff]

end Loading

namespace Operation

/-! ## What tags become -/

/-- The extension that a tag becomes, if it has an equals sign. -/
def extensionOf? (tag : Value) : Option (Scalar × Value) := (cutTag tag).toOption.join

/-- The extensions that tags become, in order. -/
def extensionsOf (tags : List Value) : Entries Value := tags.filterMap extensionOf?

/-- The tags that stay. -/
def plainTags (tags : List Value) : List Value := tags.filter fun tag => (extensionOf? tag).isNone

variable {tags : List Value} {extensions : Entries Value}

theorem cutTag_of_text {tag : Value} (text : tag.isText) :
    cutTag tag = .ok (extensionOf? tag) := by
  have cut : ∃ extension, cutTag tag = .ok extension := by
    cases tag with
    | scalar scalar =>
        cases scalar with
        | string tag =>
            rw [cutTag]
            split <;> exact ⟨_, rfl⟩
        | surrogates codes => exact ⟨_, rfl⟩
        | _ => cases text
    | _ => cases text
  obtain ⟨extension, cut⟩ := cut
  rw [extensionOf?, cut]
  rfl

/-- Tags that are texts become extensions or stay. -/
theorem moveTags_of_text (texts : ∀ tag ∈ tags, tag.isText) :
    moveTags extensions tags = (extensions.putAll (extensionsOf tags), .ok (plainTags tags)) := by
  induction tags generalizing extensions with
  | nil => rfl
  | cons tag rest ih =>
      have later (extensions : Entries Value) :=
        @ih extensions fun other member => texts other (.tail _ member)
      rw [moveTags, cutTag_of_text (texts tag (.head _))]
      unfold extensionsOf plainTags
      cases cut : extensionOf? tag with
      | none =>
          rw [List.filterMap_cons_none cut, List.filter_cons_of_pos (by rw [cut]; rfl)]
          dsimp only
          rw [later]
          rfl
      | some extension =>
          rw [List.filterMap_cons_some cut, List.filter_cons_of_neg (by simp [cut])]
          exact later _

/-- A tag that can not be searched is no text. -/
theorem cutTag_fails {tag : Value} {failure : Failure} (cut : cutTag tag = .error failure) :
    tag.isText = false ∧ (failure = .tagNotText tag ∨ failure = .tagNotCut tag) := by
  refine ⟨?_, ?_⟩
  · by_contra text
    rw [Bool.not_eq_false] at text
    cases (cutTag_of_text text).symm.trans cut
  · cases tag with
    | scalar scalar =>
        cases scalar with
        | string tag =>
            rw [cutTag] at cut
            split at cut <;> cases cut
        | surrogates codes => cases cut
        | _ =>
            cases cut
            exact .inl rfl
    | array mark items =>
        rw [cutTag] at cut
        split at cut
        · exact .inr (Except.error.inj cut).symm
        · cases cut
    | object mark entries =>
        rw [cutTag] at cut
        split at cut
        · exact .inr (Except.error.inj cut).symm
        · cases cut
    | _ =>
        cases cut
        exact .inl rfl

/-- Tags are not separated for one that can not be searched. -/
theorem exists_of_moveTags {failure : Failure}
    (moved : (moveTags extensions tags).2 = .error failure) :
    ∃ tag ∈ tags, cutTag tag = .error failure := by
  induction tags generalizing extensions with
  | nil => cases moved
  | cons tag rest ih =>
      rw [moveTags] at moved
      cases cut : cutTag tag with
      | error other =>
          rw [cut] at moved
          obtain rfl := Except.error.inj moved
          exact ⟨tag, .head _, cut⟩
      | ok extension =>
          rw [cut] at moved
          have later : ∃ extensions, (moveTags extensions rest).2 = .error failure := by
            cases extension with
            | some extension => exact ⟨_, moved⟩
            | none =>
                refine ⟨extensions, ?_⟩
                dsimp only at moved
                cases others : (moveTags extensions rest).2 with
                | error other => rwa [others] at moved
                | ok kept =>
                    rw [others] at moved
                    cases moved
          obtain ⟨extensions, later⟩ := later
          obtain ⟨other, inside, given⟩ := ih later
          exact ⟨other, .tail _ inside, given⟩

theorem exists_of_separateTags {operation finished : Element} {failure : Failure}
    (fails : separateTags operation = (finished, some failure)) :
    ∃ tag ∈ operation.list "tags", cutTag tag = .error failure := by
  unfold separateTags at fails
  split at fails
  · cases fails
  next extensions other moved =>
    obtain ⟨-, rfl⟩ : _ ∧ other = failure := by simpa using fails
    exact exists_of_moveTags (congrArg Prod.snd moved)

/-- An operation with its tags separated. -/
def separated (operation : Element) : Element :=
  (operation.withExtensions (operation.extensions.putAll
    (extensionsOf (operation.list "tags")))).set "tags"
      (.list (plainTags (operation.list "tags")))

/-- Tags that are texts are always separated. -/
theorem separateTags_of_text {operation : Element}
    (texts : ∀ tag ∈ operation.list "tags", tag.isText) :
    separateTags operation = (separated operation, none) := by
  rw [separateTags, moveTags_of_text texts]
  rfl

/-! ## What is written afterwards -/

/-- What is written of an operation differs in its tags and its extensions alone, and can be loaded
as it could before. -/
structure KeepsFields (before after : Element) : Prop where
  unchanged : ∀ key, key ≠ .string "tags" → key.isExtension = false →
    Entries.get? after.dump key = Entries.get? before.dump key
  /-- Nothing is added but extensions. -/
  added : ∀ key ∈ Entries.keys after.dump, key ∈ Entries.keys before.dump ∨ key.isExtension = true
  reloads : (∃ loaded, Element.load .operation before.dump = pure loaded) →
    ∃ loaded, Element.load .operation after.dump = pure loaded

variable {operation : Element} {key : Scalar}

theorem known_tags : (⟨"tags", .list⟩ : Field) ∈ Kind.operation.fields := .head _

/-- Under a key there is what the last tag says about it, or else what was there before; under the
key of the tags, those that stay. -/
theorem get?_dump_separated (kind : operation.kind = .operation) (regular : operation.IsRegular) :
    Entries.get? (separated operation).dump key =
      (Entries.get? (extensionsOf (operation.list "tags")).reverse key).or
        (if key = .string "tags" then dumpContent (.list (plainTags (operation.list "tags")))
          else Entries.get? operation.dump key) := by
  have fields : ((separated operation).fields.map Prod.fst).Nodup :=
    Element.nodup_setField regular.distinct
  have extensions : (separated operation).extensions.keys.Nodup :=
    Entries.nodup_keys_putAll regular.extensions_distinct
  have known : ⟨"tags", .list⟩ ∈ operation.kind.fields := kind ▸ known_tags
  have tabled := @Element.get?_tabulate_set
    (operation.withExtensions (separated operation).extensions) _
    (.list (plainTags (operation.list "tags"))) key known
  rw [Element.get?_dump fields, Entries.get?_of_perm (List.reverse_perm _) extensions,
    show (separated operation).extensions = operation.extensions.putAll _ from rfl,
    Entries.get?_putAll, Option.or_assoc]
  refine congrArg _ ((congrArg _ tabled).trans ?_)
  rw [Element.get?_dump regular.distinct,
    Entries.get?_of_perm (List.reverse_perm _) regular.extensions_distinct]
  by_cases same : key = .string "tags"
  · rw [if_pos same, if_pos same, Entries.get?_eq_none_iff.mpr fun member => ?_]
    · rfl
    · rw [same] at member
      cases regular.extended _ member
  · rw [if_neg same, if_neg same]
    rfl

/-- If no tags are written, none stay. -/
theorem dumpContent_plainTags (kind : operation.kind = .operation) (regular : operation.IsRegular)
    (absent : Entries.get? operation.dump (.string "tags") = none) :
    dumpContent (.list (plainTags (operation.list "tags"))) = none := by
  have known : ⟨"tags", .list⟩ ∈ operation.kind.fields := kind ▸ known_tags
  have given := regular.get?_dump known
  have none_given : operation.list "tags" = [] := by
    cases held : operation.get? "tags" with
    | none => rw [Element.list, held]
    | some content =>
        cases content with
        | list items =>
            rw [absent, Element.writtenAt?, held, Option.bind_some, dumpContent] at given
            cases items with
            | nil => rw [Element.list, held]
            | cons => cases given
        | _ => rw [Element.list, held]
  rw [none_given]
  rfl

/-- Tags that stay are loaded again. -/
theorem exists_loadContent_tags {again : ContentLoader} {place : List Nat} {value : Value}
    (written : dumpContent (.list tags) = some value) :
    ∃ content, loadContent again [] place .list value = pure content := by
  cases tags with
  | nil => cases written
  | cons tag rest =>
      obtain rfl := Option.some.inj written
      exact ⟨_, rfl⟩

/-- Tags that become extensions with keys of extensions leave the fields alone. -/
theorem keepsFields_separated (kind : operation.kind = .operation) (regular : operation.IsRegular)
    (extended : ∀ key ∈ (extensionsOf (operation.list "tags")).keys, key.isExtension = true) :
    KeepsFields operation (separated operation) := by
  have written {key : Scalar} (plain : key.isExtension = false) :
      Entries.get? (separated operation).dump key =
        if key = .string "tags" then dumpContent (.list (plainTags (operation.list "tags")))
        else Entries.get? operation.dump key := by
    have untouched : Entries.get? (extensionsOf (operation.list "tags")).reverse key = none := by
      refine Entries.get?_eq_none_iff.mpr fun member => ?_
      rw [Entries.keys, List.map_reverse, List.mem_reverse] at member
      exact Bool.false_ne_true (plain.symm.trans (extended key member))
    rw [get?_dump_separated kind regular, untouched, Option.none_or]
  have unchanged (key : Scalar) (other : key ≠ .string "tags") (plain : key.isExtension = false) :
      Entries.get? (separated operation).dump key = Entries.get? operation.dump key := by
    rw [written plain, if_neg other]
  refine ⟨unchanged, fun key member => ?_, ?_⟩
  · by_cases extension : key.isExtension = true
    · exact .inr extension
    · rw [Bool.not_eq_true] at extension
      refine .inl (not_imp_comm.mp Entries.get?_eq_none_iff.mpr fun absent => ?_)
      refine Entries.get?_eq_none_iff.mp ?_ member
      by_cases same : key = .string "tags"
      · rw [written extension, if_pos same]
        exact dumpContent_plainTags kind regular (same ▸ absent)
      · rw [unchanged key same extension, absent]
  · rintro ⟨loaded, loads⟩
    obtain ⟨parts, silent, -⟩ := Reported.bind_eq_pure_iff.mp loads
    have each := loadParts_silent_iff.mp ⟨parts, silent⟩
    refine (Reported.map_silent_iff _).mpr (loadParts_silent_iff.mpr ?_)
    rintro ⟨key, value⟩ member
    by_cases extension : key.isExtension = true
    · exact .inl extension
    · rw [Bool.not_eq_true] at extension
      have distinct : (Entries.keys (separated operation).dump).Nodup :=
        Element.nodup_keys_dump (Element.nodup_setField regular.distinct)
      have found := (Entries.get?_eq_some_iff distinct).mpr member
      by_cases same : key = .string "tags"
      · rw [written extension, if_pos same] at found
        exact .inr ⟨_, known_tags, same, exists_loadContent_tags found⟩
      · rw [unchanged key same extension] at found
        exact each _ (Entries.mem_of_get? found)

/-- Separating tags that are texts always succeeds. Under a key there is then what the last tag says
about it; under a key that no tag names there are the tags that stay, or what was there before. So
if all the extensions that tags become have keys of extensions, the fields are kept. -/
theorem separateTags_writes {operation : Element} (kind : operation.kind = .operation)
    (regular : operation.IsRegular) (texts : ∀ tag ∈ operation.list "tags", tag.isText) :
    ∃ finished, separateTags operation = (finished, none) ∧
      (∀ key, Entries.get? finished.dump key =
        (Entries.get? (extensionsOf (operation.list "tags")).reverse key).or
          (if key = .string "tags" then dumpContent (.list (plainTags (operation.list "tags")))
            else Entries.get? operation.dump key)) ∧
      ((∀ key ∈ (extensionsOf (operation.list "tags")).keys, key.isExtension = true) →
        KeepsFields operation finished) :=
  ⟨separated operation, separateTags_of_text texts,
    fun _ => get?_dump_separated kind regular, keepsFields_separated kind regular⟩

/-- An operation with tags that become extensions, some of them twice. -/
def visibleBooks : Element :=
  .mk .operation [
    ("tags", .list [.string "Books", .string "x-visibility=internal", .string "archived",
      .string " x-visibility = public"]),
    ("summary", .value (.string "Reads a book"))] [(.string "x-owner", .string "readers")]

theorem visibleBooks_keepsFields : ∃ finished, separateTags visibleBooks = (finished, none) ∧
    KeepsFields visibleBooks finished ∧
    Entries.get? finished.dump (.string "x-visibility") = some (.string "public") := by
  have regular : visibleBooks.IsRegular := {
    distinct := by decide
    extensions_distinct := List.nodup_singleton _
    extended := by decide }
  obtain ⟨finished, given, written, keeps⟩ := @separateTags_writes visibleBooks rfl regular
    (by decide)
  exact ⟨finished, given, keeps (by decide +kernel), (written _).trans rfl⟩

/-- An operation with a tag that has the key of a field, and one with a key that is unknown. -/
def archivedBooks : Element :=
  .mk .operation [
    ("tags", .list [.string "summary = Archived", .string "shelf=top"]),
    ("summary", .value (.string "Reads a book"))] []

/-- A tag takes the place of the summary, and another adds what no operation knows. -/
theorem tags_replace_summary : archivedBooks.IsRegular ∧
    (∀ tag ∈ archivedBooks.list "tags", tag.isText) ∧
    ∃ finished, separateTags archivedBooks = (finished, none) ∧
      Entries.get? archivedBooks.dump (.string "summary") = some (.string "Reads a book") ∧
      Entries.get? finished.dump (.string "summary") = some (.string "Archived") ∧
      Scalar.string "shelf" ∉ Entries.keys archivedBooks.dump ∧
      Scalar.string "shelf" ∈ Entries.keys finished.dump ∧
      (Element.load .operation archivedBooks.dump).notices = [] ∧
      (Element.load .operation finished.dump).notices =
        [.unknownKey .operation (.string "shelf")] := by
  have regular : archivedBooks.IsRegular :=
    ⟨by decide, List.nodup_nil, fun _ member => (List.not_mem_nil member).elim⟩
  refine ⟨regular, by decide, _, rfl, rfl, rfl, ?_, ?_, rfl, rfl⟩
  · decide +kernel
  · decide +kernel

end Operation

end ServiceDoc
