import ServiceDoc.Proofs.Document.Union
import Mathlib.Data.List.Perm.Basic

/-!
# Describing files together and apart

If full names tell messages apart, describing files in one document and describing each in its own
come to the same: the document of all files has the component schemas, the operations and the tags
of the documents of the files, each up to the order and the place of servers.
-/

namespace ServiceDoc

open Build Workspace

namespace Element

/-- The paths and verbs of the operations of a document. -/
def slots (document : Element) : List (Scalar × String) :=
  (document.table "paths").flatMap fun entry =>
    (Kind.verbs.filter fun verb => (entry.2.one? verb).isSome).map fun verb => (entry.1, verb)

theorem mem_slots {document : Element} {path : Scalar} {verb : String} (member : verb ∈ Kind.verbs)
    (held : (document.served? path verb).isSome) : (path, verb) ∈ document.slots := by
  obtain ⟨served, held⟩ := Option.isSome_iff_exists.mp held
  obtain ⟨item, found, held⟩ := Option.bind_eq_some_iff.mp held
  obtain ⟨operation, stands, -⟩ := Option.map_eq_some_iff.mp held
  refine List.mem_flatMap.mpr ⟨_, Entries.mem_of_get? found, List.mem_map.mpr ⟨verb, ?_, rfl⟩⟩
  exact List.mem_filter.mpr ⟨member, by rw [stands]; rfl⟩

/-- A document gathers what others hold. -/
structure Gathers (whole : Element) (parts : List Element) : Prop where
  /-- No component schema stands twice. -/
  distinct : whole.componentSchemas.keys.Nodup
  /-- The component schemas are those of the parts, which agree where several have one. -/
  schemas : ∀ key schema, whole.componentSchemas.get? key = some schema ↔
    ∃ part ∈ parts, part.componentSchemas.get? key = some schema
  /-- The operations are those of the parts but for where their servers stand. -/
  operations : ∀ path, ∀ verb ∈ Kind.verbs, Option.Rel Servers.SameServed
    (parts.findSome? (·.served? path verb)) (whole.served? path verb)
  /-- The tags are those of the parts. -/
  tags : (whole.many "tags").Perm (parts.flatMap (·.many "tags"))

end Element

theorem Servers.rel_symm {first second : Option (Element × List (Option Value))}
    (related : Option.Rel SameServed first second) : Option.Rel SameServed second first := by
  cases related with
  | none => exact .none
  | some same => exact .some same.symm

theorem Servers.rel_trans {first second third : Option (Element × List (Option Value))}
    (related : Option.Rel SameServed first second) (again : Option.Rel SameServed second third) :
    Option.Rel SameServed first third := by
  cases related with
  | none => exact again
  | some same =>
      cases again with
      | some other => exact .some (same.trans other)

namespace Config

variable {config : Config} {generated : List String} {definitions : List FileDefinition}
  {files : List SourceFile} {document : Element} {effect : SourceFile → Effect}

/-- An operation without its servers, and the addresses of these. -/
def ownServed (operation : Element) : Element × List (Option Value) :=
  (Servers.clear operation, Servers.urls operation)

/-- What the document of some files holds, told by the effect of each. -/
structure Shows (config : Config) (registry : Registry) (effect : SourceFile → Effect)
    (files : List SourceFile) (document : Element) : Prop where
  distinct : document.componentSchemas.keys.Nodup
  schemas : ∀ key schema, document.componentSchemas.get? key = some schema ↔
    ∃ name, key = .string name ∧ ∃ file, file ∈ files ∧ config.Stands registry
      (config.Reached registry registry.fileMessages (effect file).names)
      (config.defaultResponse = true ∧ config.Operates registry file) name schema
  operations : ∀ path, ∀ verb ∈ Kind.verbs, Option.Rel Servers.SameServed
    (((Effect.all (files.map effect)).slots path verb).map ownServed) (document.served? path verb)
  tags : (document.many "tags").Perm (files.flatMap fun file => (effect file).tags)

/-- The title of a document is set from the start. -/
theorem isSet_title_initialDocument (titled : config.title ≠ "") :
    Title.isSet (((initialDocument config none).one? "info").getD (.empty .info)) "title" =
      true := by
  rw [initialDocument_eq]
  exact bne_iff_ne.mpr titled

/-- If full names tell messages apart, the document of files with a title is told by the effect of
each. -/
theorem shows_of_built (titled : config.title ≠ "")
    (apart : config.NamesApart (.ofFiles generated definitions))
    (distinct : ((Registry.ofFiles generated definitions).fileMessages.map
      Message.fullName).Nodup)
    (plain : ∀ file ∈ files, Unannotated (file.payload? .document))
    (brings : ∀ file ∈ files, config.Brings (.ofFiles generated definitions) file (effect file))
    (built : (config.buildDocument (.ofFiles generated definitions) files none).outcome =
      .ok document) :
    config.Shows (.ofFiles generated definitions) effect files document := by
  have indexed := Registry.indexed_ofFiles generated definitions
  obtain ⟨operated, chosen, operations, chooses, describes⟩ :=
    components_describe_reached apart plain built
  obtain ⟨again, resolved, rerun, resolves, settles⟩ := buildDocument_iff.mp built
  obtain rfl : operated = again := by
    have same := operations.symm.trans rerun
    simpa only [EStateM.Result.ok.injEq, true_and] using same
  have acts := addFiles_acts brings operations
  obtain ⟨names, noted⟩ := resolveSchemas_acts resolves
  have resolved_acts := acts.trans noted
  have unserved := resolved_acts.unserved unserved_initialDocument
  have resolved_titled :
      Title.isSet ((resolved.document.one? "info").getD (.empty .info)) "title" = true := by
    rw [PathItem.one?_congr resolved_acts.info]
    exact isSet_title_initialDocument titled
  refine ⟨describes.distinct, fun key schema => ?schemas, fun path verb member => ?operations,
    ?tags⟩
  case schemas =>
    have same : ∀ message, message ∈ chosen ↔
        message ∈ (Registry.ofFiles generated definitions).fileMessages :=
      fun message => (chooses.perm indexed distinct).mem_iff
    have roots : ∀ name, name ∈ operated.required ↔
        name ∈ files.flatMap fun file => (effect file).names := by
      intro name
      rw [acts.names, mem_requireAll, or_iff_right List.not_mem_nil, Effect.names_all,
        List.flatMap_map]
    have reached : config.Reached (.ofFiles generated definitions) chosen operated.required =
        fun message => ∃ file, file ∈ files ∧ config.Reached (.ofFiles generated definitions)
          (Registry.ofFiles generated definitions).fileMessages (effect file).names message := by
      funext message
      refine propext (Iff.trans ⟨fun reaches => ?_, fun reaches => ?_⟩ reached_flatMap)
      · exact (reaches.mono fun _ => (same _).mp).imp fun _ => (roots _).mp
      · exact (reaches.mono fun _ => (same _).mpr).imp fun _ => (roots _).mpr
    have defaulted : (config.defaultResponse = true ∧
          ∃ file ∈ files, config.Operates (.ofFiles generated definitions) file) =
        ∃ file, file ∈ files ∧ config.defaultResponse = true ∧
          config.Operates (.ofFiles generated definitions) file := by
      simp only [and_left_comm, exists_and_left]
    rw [describes.get?_iff, reached, defaulted]
    simp only [stands_exists]
  case operations =>
    have slot : resolved.document.served? path verb =
        ((Effect.all (files.map effect)).slots path verb).map ownServed := by
      rw [unserved.served?, resolved_acts.slots]
      change (Option.or (Option.or none _) none).map _ = _
      rw [Option.none_or, Option.or_none]
      rfl
    exact slot ▸ settles.served? unserved.distinct member
  case tags =>
    have tags : resolved.document.many "tags" = files.flatMap fun file => (effect file).tags := by
      rw [resolved_acts.tags, Effect.tags_andThen, Effect.tags_all, List.flatMap_map]
      exact List.append_nil _
    exact tags ▸ settles.tags_perm resolved_titled

/-- What a file shows alone. -/
theorem Shows.slot {registry : Registry} {file : SourceFile}
    (shows_alone : config.Shows registry effect [file] document) {path : Scalar} {verb : String}
    (member : verb ∈ Kind.verbs) : Option.Rel Servers.SameServed
      (((effect file).slots path verb).map ownServed) (document.served? path verb) := by
  have slot := shows_alone.operations path verb member
  rwa [List.map_singleton, Effect.all_cons, Effect.slots_andThen, Effect.all_nil,
    Option.none_or] at slot

/-- The first operations among related ones are related. -/
theorem rel_findSome? {slot : SourceFile → Option Element}
    {served : SourceFile → Option (Element × List (Option Value))}
    (related : ∀ file ∈ files,
      Option.Rel Servers.SameServed ((slot file).map ownServed) (served file)) :
    Option.Rel Servers.SameServed ((files.findSome? slot).map ownServed)
      (files.findSome? served) := by
  induction files with
  | nil => exact .none
  | cons file rest ih =>
      rw [List.forall_mem_cons] at related
      rw [List.findSome?_cons, List.findSome?_cons]
      have first := related.1
      generalize slot file = held, served file = shown at first ⊢
      cases held with
      | none =>
          cases first
          exact ih related.2
      | some operation =>
          cases first with
          | some same => exact .some same

/-- If full names tell messages apart, the document of files that bind different paths and verbs
gathers what the documents of each file hold. -/
theorem together_gathers_apart {merged : Element} {part : SourceFile → Element}
    (titled : config.title ≠ "")
    (apart : config.NamesApart (.ofFiles generated definitions))
    (distinct : ((Registry.ofFiles generated definitions).fileMessages.map
      Message.fullName).Nodup)
    (plain : ∀ file ∈ files, Unannotated (file.payload? .document))
    (whole : (config.buildDocument (.ofFiles generated definitions) files none).outcome =
      .ok merged)
    (alone : ∀ file ∈ files,
      (config.buildDocument (.ofFiles generated definitions) [file] none).outcome =
        .ok (part file))
    (disjoint : files.Pairwise fun first second =>
      ∀ slot ∈ (part first).slots, slot ∉ (part second).slots) :
    merged.Gathers (files.map part) := by
  have brought : ∀ file, ∃ effect : Effect, file ∈ files →
      config.Brings (.ofFiles generated definitions) file effect := by
    intro file
    by_cases member : file ∈ files
    · obtain ⟨effect, acts⟩ := (config.addFile_fixed _ (plain file member)).effect
      exact ⟨effect, fun _ => acts⟩
    · exact ⟨{}, fun inside => (member inside).elim⟩
  choose effect brings using brought
  have together := shows_of_built titled apart distinct plain brings whole
  have each (file : SourceFile) (member : file ∈ files) :
      config.Shows (.ofFiles generated definitions) effect [file] (part file) :=
    shows_of_built titled apart distinct (List.forall_mem_singleton.mpr (plain file member))
      (List.forall_mem_singleton.mpr (brings file member)) (alone file member)
  refine ⟨together.distinct, fun key schema => ?schemas, fun path verb member => ?operations, ?tags⟩
  case schemas =>
    rw [together.schemas]
    simp only [List.mem_map]
    constructor
    · rintro ⟨name, rfl, file, inside, stands⟩
      refine ⟨_, ⟨file, inside, rfl⟩, ((each file inside).schemas _ _).mpr ?_⟩
      exact ⟨name, rfl, file, List.mem_singleton_self _, stands⟩
    · rintro ⟨_, ⟨file, inside, rfl⟩, found⟩
      obtain ⟨name, rfl, other, single, stands⟩ := ((each file inside).schemas _ _).mp found
      obtain rfl := List.mem_singleton.mp single
      exact ⟨name, rfl, _, inside, stands⟩
  case operations =>
    have differ : (files.map effect).Pairwise fun first second =>
        first.slots path verb = none ∨ second.slots path verb = none := by
      refine List.pairwise_map.mpr (disjoint.imp_of_mem fun {first second} here there apart => ?_)
      by_contra both
      simp only [not_or, ← Option.isSome_iff_ne_none] at both
      have held (file : SourceFile) (inside : file ∈ files)
          (some : ((effect file).slots path verb).isSome) : (path, verb) ∈ (part file).slots := by
        refine Element.mem_slots member ?_
        have slot : Option.Rel _ _ ((part file).served? path verb) :=
          (each file inside).slot member
        obtain ⟨operation, some⟩ := Option.isSome_iff_exists.mp some
        rw [some, Option.map_some] at slot
        generalize (part file).served? path verb = served at slot ⊢
        cases slot
        rfl
      exact apart _ (held first here both.1) (held second there both.2)
    have gathered := together.operations path verb member
    rw [Effect.slots_all differ, List.findSome?_map] at gathered
    rw [List.findSome?_map]
    refine Servers.rel_trans (Servers.rel_symm ?_) gathered
    exact rel_findSome? fun file inside => (each file inside).slot member
  case tags =>
    rw [List.flatMap_map]
    refine together.tags.trans (List.Perm.flatMap_left _ fun file inside => ?_)
    have tags := (each file inside).tags
    rw [List.flatMap_singleton] at tags
    exact tags.symm

/-- The document of some files, if it can be built. -/
def documentOf (config : Config) (registry : Registry) (files : List SourceFile) : Element :=
  (config.buildDocument registry files none).outcome.toOption.getD default

theorem outcome_of_isOk {registry : Registry}
    (ends : (config.buildDocument registry files none).outcome.isOk = true) :
    (config.buildDocument registry files none).outcome =
      .ok (config.documentOf registry files) := by
  unfold documentOf
  cases built : (config.buildDocument registry files none).outcome with
  | error failure =>
      rw [built] at ends
      cases ends
  | ok document => rfl

/-- The document of some files before it is settled. -/
def unsettledOf (config : Config) (registry : Registry) (files : List SourceFile) : Element :=
  match (do files.forM (config.addFile registry); config.resolveSchemas registry : Build Unit).run
    { document := initialDocument config none } with
  | .ok _ work | .error _ work => work.document

theorem unsettledOf_eq {registry : Registry} {operated resolved : Workspace}
    (operations : (files.forM (config.addFile registry)).Runs
      { document := initialDocument config none } () operated)
    (resolves : (config.resolveSchemas registry).Runs operated () resolved) :
    config.unsettledOf registry files = resolved.document := by
  have steps : (do files.forM (config.addFile registry); config.resolveSchemas registry :
      Build Unit).Runs { document := initialDocument config none } () resolved :=
    runs_bind.mpr ⟨_, _, operations, resolves⟩
  unfold unsettledOf
  rw [show EStateM.run _ _ = _ from steps]

/-- Settling a document leaves its component schemas under their keys. -/
theorem get?_componentSchemas {registry : Registry}
    (built : (config.buildDocument registry files none).outcome = .ok document)
    (distinct : (config.unsettledOf registry files).componentSchemas.keys.Nodup) (key : Scalar) :
    document.componentSchemas.get? key =
      (config.unsettledOf registry files).componentSchemas.get? key := by
  obtain ⟨operated, resolved, operations, resolves, settles⟩ := buildDocument_iff.mp built
  rw [unsettledOf_eq operations resolves] at distinct ⊢
  exact Entries.get?_of_perm settles.componentSchemas_perm distinct key

end Config

/-! ## A library in several files -/

/-- A service that reads one message. -/
def readingService (name message path : String) : ServiceDefinition where
  name
  methods := [{
    name := "Get"
    input := message
    output := message
    rules := [{ pattern := .verb "get" path }] }]

/-- The books of a library. -/
def booksFile : FileDefinition where
  name := "books.proto"
  package := "library"
  messages := [{ name := "Book", fields := [{ name := "title", type := .string }] }]
  services := [readingService "Books" ".library.Book" "/books/{title}"]

/-- The shelves of a library, which hold the books of another file. -/
def shelvesFile : FileDefinition where
  name := "shelves.proto"
  package := "library"
  messages := [{
    name := "Shelf"
    fields := [
      { name := "theme", type := .string },
      { name := "books", type := .message, typeName := ".library.Book", label := .repeated }] }]
  services := [readingService "Shelves" ".library.Shelf" "/shelves/{theme}"]

/-- Books under the name of other books. -/
def reprintsFile : FileDefinition where
  name := "reprints.proto"
  package := "library"
  messages := [{ name := "Book", fields := [{ name := "cover", type := .string }] }]

/-- The registry of a library in two files. -/
def branchesRegistry : Registry :=
  .ofFiles ["books.proto", "shelves.proto"] [booksFile, shelvesFile]

/-- The registry of a library in two files, next to a file that defines books again. -/
def reprintsRegistry : Registry :=
  .ofFiles ["books.proto", "shelves.proto"] [booksFile, shelvesFile, reprintsFile]

/-- The document of a library in two files gathers what the documents of books and of shelves
hold. -/
theorem branches_gathers_apart :
    (libraryConfig.buildDocument branchesRegistry branchesRegistry.generatedFiles none).outcome =
        .ok (libraryConfig.documentOf branchesRegistry branchesRegistry.generatedFiles) ∧
      (libraryConfig.documentOf branchesRegistry branchesRegistry.generatedFiles).Gathers
        (branchesRegistry.generatedFiles.map fun file =>
          libraryConfig.documentOf branchesRegistry [file]) := by
  have whole := Config.outcome_of_isOk
    (by decide +kernel : (libraryConfig.buildDocument branchesRegistry
      branchesRegistry.generatedFiles none).outcome.isOk = true)
  have ends : ∀ file ∈ branchesRegistry.generatedFiles,
      (libraryConfig.buildDocument branchesRegistry [file] none).outcome.isOk = true := by
    decide +kernel
  exact ⟨whole, Config.together_gathers_apart (by decide) (by decide +kernel) (by decide +kernel)
    (by decide +kernel) whole (fun file member => Config.outcome_of_isOk (ends file member))
    (by decide +kernel)⟩

/-- The names of the properties of a component schema. -/
def Element.propertyNames (document : Element) (name : String) : Option (List Scalar) :=
  (document.componentSchemas.get? (.string name)).map fun schema =>
    (schema.table "properties").keys

/-- If a message is defined twice, files that are described apart can take different definitions,
though all that differ in their full names differ in their schema names and no path is bound
twice. -/
theorem reprints_not_gathered :
    libraryConfig.title ≠ "" ∧ libraryConfig.NamesApart reprintsRegistry ∧
      (∀ file ∈ reprintsRegistry.generatedFiles, Unannotated (file.payload? .document)) ∧
      (libraryConfig.buildDocument reprintsRegistry reprintsRegistry.generatedFiles none).outcome =
        .ok (libraryConfig.documentOf reprintsRegistry reprintsRegistry.generatedFiles) ∧
      (∀ file ∈ reprintsRegistry.generatedFiles,
        (libraryConfig.buildDocument reprintsRegistry [file] none).outcome =
          .ok (libraryConfig.documentOf reprintsRegistry [file])) ∧
      reprintsRegistry.generatedFiles.Pairwise (fun first second =>
        ∀ slot ∈ (libraryConfig.documentOf reprintsRegistry [first]).slots,
          slot ∉ (libraryConfig.documentOf reprintsRegistry [second]).slots) ∧
      ¬(libraryConfig.documentOf reprintsRegistry reprintsRegistry.generatedFiles).Gathers
        (reprintsRegistry.generatedFiles.map fun file =>
          libraryConfig.documentOf reprintsRegistry [file]) := by
  have whole := Config.outcome_of_isOk
    (by decide +kernel : (libraryConfig.buildDocument reprintsRegistry
      reprintsRegistry.generatedFiles none).outcome.isOk = true)
  have ends : ∀ file ∈ reprintsRegistry.generatedFiles,
      (libraryConfig.buildDocument reprintsRegistry [file] none).outcome.isOk = true := by
    decide +kernel
  refine ⟨by decide, by decide +kernel, by decide +kernel, whole,
    fun file member => Config.outcome_of_isOk (ends file member), by decide +kernel,
    fun gathers => ?_⟩
  have unsettled : ∀ file ∈ reprintsRegistry.generatedFiles,
      (libraryConfig.unsettledOf reprintsRegistry [file]).componentSchemas.keys.Nodup := by
    decide +kernel
  -- What a part says of a message the whole says of it, but two parts differ.
  have told (file : SourceFile) (member : file ∈ reprintsRegistry.generatedFiles)
      {names : List Scalar}
      (said : (libraryConfig.unsettledOf reprintsRegistry [file]).propertyNames "Book" =
        some names) :
      (libraryConfig.documentOf reprintsRegistry reprintsRegistry.generatedFiles).propertyNames
        "Book" = some names := by
    obtain ⟨schema, found, rfl⟩ := Option.map_eq_some_iff.mp said
    rw [← Config.get?_componentSchemas (Config.outcome_of_isOk (ends file member))
      (unsettled file member)] at found
    have stands := (gathers.schemas _ _).mpr ⟨_, List.mem_map_of_mem member, found⟩
    exact Option.map_eq_some_iff.mpr ⟨schema, stands, rfl⟩
  have differ : (reprintsRegistry.generatedFiles.map fun file =>
      (libraryConfig.unsettledOf reprintsRegistry [file]).propertyNames "Book") =
        [some [.string "title"], some [.string "cover"]] := by decide +kernel
  obtain ⟨first, second, files⟩ : ∃ first second,
      reprintsRegistry.generatedFiles = [first, second] :=
    List.length_eq_two.mp (by decide +kernel)
  rw [files] at told differ
  simp only [List.map_cons, List.map_nil, List.cons.injEq, and_true] at differ
  have same := (told first (.head _) differ.1).symm.trans (told second (.tail _ (.head _)) differ.2)
  exact absurd same (by decide)

end ServiceDoc
