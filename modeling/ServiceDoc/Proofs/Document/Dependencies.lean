import ServiceDoc.Generation
import ServiceDoc.Proofs.Document.Arrange
import ServiceDoc.Proofs.Document.Modes
import ServiceDoc.Proofs.Operation.Agree
import Mathlib.Data.List.Perm.Subperm

/-!
# Files that are not described

What is generated from the files to describe depends on the other files by the types that are
mentioned alone: neither the order of the other files nor further ones among them matter.
-/

namespace ServiceDoc

open Build Workspace

/-- Two outcomes that succeed with the same values give the same. -/
theorem toOption_congr {ε α : Type} {first second : Except ε α}
    (same : ∀ value, first = .ok value ↔ second = .ok value) :
    first.toOption = second.toOption := by
  cases first with
  | ok value =>
      rw [(same value).mp rfl]
  | error error =>
      cases second with
      | ok value => cases (same value).mpr rfl
      | error other => rfl

/-- Files are in another order that keeps that of the files to describe, among further files that
are not described. -/
structure Rearranges (generated : List String) (files extra others : List FileDefinition) :
    Prop where
  moved : others.Perm (files ++ extra)
  order : others.filter (Registry.describes generated) = files.filter (Registry.describes generated)

namespace Config

/-- Messages with different full names have different schema names. -/
def NamesDiffer (config : Config) (registry : Registry) : Prop :=
  ∀ first ∈ registry.fileMessages, ∀ second ∈ registry.fileMessages,
    config.messageName first = config.messageName second → first.fullName = second.fullName

instance (config : Config) (registry : Registry) : Decidable (config.NamesDiffer registry) :=
  inferInstanceAs (Decidable (∀ first ∈ registry.fileMessages, ∀ second ∈ registry.fileMessages,
    config.messageName first = config.messageName second → first.fullName = second.fullName))

/-- If it is errors that bring the schema of any message, and no operation does, then its name is
that of no other message. -/
def DistinguishesAny (config : Config) (registry : Registry) : Prop :=
  config.defaultResponse = false → ∀ error ∈ registry.fileMessages,
    error.fullName = WellKnown.statusMessage → ∀ message ∈ registry.fileMessages,
      config.messageName message = config.schemaName anyIdentity →
        message.fullName = WellKnown.anyMessage

instance (config : Config) (registry : Registry) : Decidable (config.DistinguishesAny registry) :=
  inferInstanceAs (Decidable (config.defaultResponse = false → ∀ error ∈ registry.fileMessages,
    error.fullName = WellKnown.statusMessage → ∀ message ∈ registry.fileMessages,
      config.messageName message = config.schemaName anyIdentity →
        message.fullName = WellKnown.anyMessage))

/-- Schema names tell messages apart, among them the message for any message where errors bring
it. -/
structure Distinguishes (config : Config) (registry : Registry) : Prop where
  messages : config.NamesDiffer registry
  any : config.DistinguishesAny registry

/-- Further files define no type that is mentioned, and messages of new full names and of new schema
names. -/
structure Unrelated (config : Config) (registry extra : Registry) : Prop where
  ignores : registry.Ignores extra
  fullNames : ∀ message ∈ extra.fileMessages,
    message.fullName ∉ registry.fileMessages.map Message.fullName
  names : ∀ message ∈ extra.fileMessages,
    config.messageName message ∉ registry.fileMessages.map config.messageName

variable {config : Config} {registry first second : Registry} {generated : List String}
  {files others extra : List FileDefinition}

theorem Mirrors.mem_messages (indexed : registry.Indexed) (mirrors : config.Mirrors registry first)
    {entry : String × Message} (member : entry ∈ registry.messages) : entry ∈ first.messages := by
  obtain ⟨another, among, same⟩ := mirrors.found _ (indexed.defined entry member)
  have named : another.1 = entry.1 := by
    rw [← mirrors.indexed.named another among, same, indexed.named entry member]
  rwa [← Prod.ext named same]

/-- A registry that mirrors another has as many fields. -/
theorem Mirrors.fieldCount_le (indexed : registry.Indexed)
    (mirrors : config.Mirrors registry first) : fieldCount registry ≤ fieldCount first := by
  have sums (registry : Registry) : fieldCount registry =
      (registry.messages.map fun entry => entry.2.fields.length).sum := by
    unfold fieldCount
    induction registry.messages with
    | nil => rfl
    | cons entry rest ih => rw [List.foldr_cons, ih, List.map_cons, List.sum_cons]
  obtain ⟨entries, moved, among⟩ := List.Nodup.subperm (List.Nodup.of_map _ indexed.distinct)
    fun _ => mirrors.mem_messages indexed
  rw [sums, sums, ← (moved.map _).sum_eq]
  exact (among.map _).sum_le_sum fun _ _ => Nat.zero_le _

/-- Files in another order, among files that they are not related to, mirror them. -/
theorem mirrors_ofFiles (moved : others.Perm (files ++ extra))
    (unambiguous : (Registry.ofFiles generated files).Unambiguous)
    (distinguishes : config.Distinguishes (.ofFiles generated files))
    (unrelated : config.Unrelated (.ofFiles generated files) (.ofFiles generated extra)) :
    config.Mirrors (.ofFiles generated files) (.ofFiles generated others) := by
  have agrees := Registry.agrees_ofFiles moved unambiguous unrelated.ignores
  have indexed := Registry.indexed_ofFiles generated files
  have among (message : Message) : message ∈ (Registry.ofFiles generated others).fileMessages ↔
      message ∈ (Registry.ofFiles generated files).fileMessages ∨
        message ∈ (Registry.ofFiles generated extra).fileMessages :=
    Registry.mem_fileMessages_of_perm moved
  have one (message : Message) (inside : message ∈ (Registry.ofFiles generated files).fileMessages)
      (namesake : Message) (known : namesake ∈ (Registry.ofFiles generated files).fileMessages)
      (same : namesake.fullName = message.fullName) : namesake = message :=
    List.inj_on_of_nodup_map unambiguous.messages known inside same
  refine ⟨Registry.indexed_ofFiles generated others,
    fun message inside => messageSchema_agrees agrees indexed inside,
    fun message inside => ?found, fun message inside namesake known same => ?alone⟩
  case found =>
    obtain ⟨entry, member, named⟩ := (Registry.indexed_ofFiles generated others).complete message
      ((among message).mpr (.inl inside))
    have full : entry.2.fullName = message.fullName :=
      ((Registry.indexed_ofFiles generated others).named entry member).trans named
    refine ⟨entry, member, ?_⟩
    rcases (among _).mp ((Registry.indexed_ofFiles generated others).defined entry member) with
      known | new
    · exact one message inside _ known full
    · exact absurd (full ▸ List.mem_map_of_mem inside) (unrelated.fullNames _ new)
  case alone =>
    rcases (among namesake).mp known with known | new
    · exact one message inside namesake known
        (distinguishes.messages namesake known message inside same)
    · exact absurd (same ▸ List.mem_map_of_mem inside) (unrelated.names namesake new)

/-- Where operations bring the default error response, the schema of any message is done before an
error can bring it. -/
theorem DistinguishesAny.spares {start : Workspace}
    (distinguishes : config.DistinguishesAny registry)
    (noted : start.required = [] ∨ config.HasDefaults start) : config.SparesAny registry start := by
  intro undone error needs status message needed same
  have defaults : config.HasDefaults start := noted.resolve_left needs.required_ne_nil
  have off : config.defaultResponse = false :=
    Bool.eq_false_iff.mpr fun default => undone (defaults default _ (.tail _ (.head _)))
  exact distinguishes off error needs.among status message needed.among same

/-- A document that is built with one registry is built with another, if both mirror a third and
files have the same operations with all of them. -/
theorem buildDocument_of_mirrors {files : List SourceFile} {base : Option Element}
    {document : Element} (self : config.Mirrors registry registry)
    (distinguishes : config.DistinguishesAny registry) (mirrors : config.Mirrors registry first)
    (mirrors_too : config.Mirrors registry second)
    (operations : files.forM (config.addFile first) = files.forM (config.addFile registry))
    (operations_too : files.forM (config.addFile second) = files.forM (config.addFile registry))
    (built : (config.buildDocument first files base).outcome = .ok document) :
    (config.buildDocument second files base).outcome = .ok document := by
  obtain ⟨operated, resolved, runs, resolves, settles⟩ := buildDocument_iff.mp built
  rw [operations] at runs
  obtain ⟨known, noted⟩ := known_addFiles (known_initialDocument _) runs
  obtain ⟨later, added, more, resolves_too, moved, distinct, same, same_too⟩ :=
    resolveSchemas_perm self (distinguishes.spares noted) mirrors mirrors_too known resolves
  rw [same] at settles
  refine buildDocument_iff.mpr ⟨operated, later, operations_too ▸ runs, resolves_too, ?_⟩
  rw [same_too]
  exact settles.putSchemas_perm moved distinct

/-- Without texts that are bytes, none is needed. -/
theorem spoils_nil {files : List SourceFile} {built : Reported Failure Element} :
    RawTexts.spoils [] config registry files built = false := by
  have has (text : String) : RawTexts.has [] text = false := rfl
  have comments (file : SourceFile) : RawTexts.isInFileComments [] file = false := by
    unfold RawTexts.isInFileComments
    split
    · simp [has]
    · rfl
  have bindings (binding : Binding) : RawTexts.isInBinding [] registry binding = false := by
    unfold RawTexts.isInBinding RawTexts.isInFieldNames
    dsimp only
    split
    · rfl
    · simp [has]
  have notices : built.notices.any (fun notice => notice.unresolvedType?.any (RawTexts.has [])) =
      false := by
    refine List.any_eq_false.mpr fun notice _ => ?_
    cases notice.unresolvedType? <;> simp [has]
  have schemas (document : Element) : RawTexts.isInSchemas [] document = false := by
    unfold RawTexts.isInSchemas
    cases document.one? "components" with
    | none => rfl
    | some components =>
        refine List.any_eq_false.mpr fun key _ => ?_
        split
        · simp [has]
        · exact Bool.false_ne_true
  have outcome : built.outcome.toOption.any (RawTexts.isInSchemas []) = false := by
    cases built.outcome.toOption <;> simp [schemas]
  unfold RawTexts.spoils RawTexts.isInBindings
  rw [notices, outcome]
  simp [comments, bindings]

/-- Without texts that are bytes, what is generated depends on long ways and on the document. -/
theorem generateFile_congr {files : List SourceFile} {base : Option Element} {name : String}
    (ways : config.hasLongWay first files = config.hasLongWay second files)
    (documents : (config.buildDocument first files base).outcome.toOption =
      (config.buildDocument second files base).outcome.toOption) :
    (config.generateFile first [] base name files).outcome.toOption =
      (config.generateFile second [] base name files).outcome.toOption := by
  have stop {α β : Type} (error : GenerationError) (next : α → Except GenerationError β) :
      (Except.error error >>= next) = .error error := rfl
  unfold generateFile
  dsimp only
  rw [spoils_nil, spoils_nil, ways]
  cases config.hasLongWay second files with
  | true => simp only [if_true, Reported.outcome_bind, Reported.outcome_fail, stop]
  | false =>
      simp only [Bool.false_eq_true, if_false, Reported.outcome_bind]
      revert documents
      generalize (config.buildDocument first files base).outcome = built,
        (config.buildDocument second files base).outcome = rebuilt
      intro documents
      cases built with
      | error failure =>
          cases rebuilt with
          | error other => simp only [Except.mapError, stop]; rfl
          | ok document => cases documents
      | ok document =>
          cases rebuilt with
          | error other => cases documents
          | ok other =>
              have same : document = other := Option.some.inj documents
              rw [same]

/-- What is generated from the files to describe is the same if the files are in another order that
keeps that of the files to describe, among further files that are not described and not related. -/
theorem generated_of_unrelated (rearranges : Rearranges generated files extra others)
    (unambiguous : (Registry.ofFiles generated files).Unambiguous)
    (distinguishes : config.Distinguishes (.ofFiles generated files))
    (unrelated : config.Unrelated (.ofFiles generated files) (.ofFiles generated extra)) :
    (Registry.ofFiles generated others).generatedFiles =
        (Registry.ofFiles generated files).generatedFiles ∧
      ∀ base chosen, (∀ file ∈ chosen, file ∈ (Registry.ofFiles generated files).generatedFiles) →
        (config.buildDocument (.ofFiles generated others) chosen base).outcome.toOption =
            (config.buildDocument (.ofFiles generated files) chosen base).outcome.toOption ∧
          ∀ name,
            (config.generateFile (.ofFiles generated others) [] base name chosen).outcome.toOption =
              (config.generateFile (.ofFiles generated files) [] base name
                chosen).outcome.toOption := by
  have agrees := Registry.agrees_ofFiles rearranges.moved unambiguous unrelated.ignores
  have indexed := Registry.indexed_ofFiles generated files
  have mirrors := mirrors_ofFiles rearranges.moved unambiguous distinguishes unrelated
  have alone : config.Unrelated (.ofFiles generated files) (.ofFiles generated []) :=
    ⟨⟨fun _ member => (List.not_mem_nil member).elim,
        fun _ member => (List.not_mem_nil member).elim⟩,
      fun _ member => (List.not_mem_nil member).elim,
      fun _ member => (List.not_mem_nil member).elim⟩
  have self : config.Mirrors (.ofFiles generated files) (.ofFiles generated files) :=
    mirrors_ofFiles (.of_eq (List.append_nil files).symm) unambiguous distinguishes alone
  refine ⟨?_, fun base chosen among => ?_⟩
  · rw [Registry.generatedFiles_ofFiles, rearranges.order, ← Registry.generatedFiles_ofFiles]
  have inside (file : SourceFile) (member : file ∈ chosen) :
      file ∈ (Registry.ofFiles generated files).files :=
    (List.mem_filter.mp (among file member)).1
  have operations : chosen.forM (config.addFile (.ofFiles generated others)) =
      chosen.forM (config.addFile (.ofFiles generated files)) :=
    forM_congr fun file member =>
      addFile_agrees agrees indexed (mirrors.fieldCount_le indexed) (inside file member)
  have documents : (config.buildDocument (.ofFiles generated others) chosen base).outcome.toOption =
      (config.buildDocument (.ofFiles generated files) chosen base).outcome.toOption :=
    toOption_congr fun document =>
      ⟨buildDocument_of_mirrors self distinguishes.any mirrors self operations rfl,
        buildDocument_of_mirrors self distinguishes.any self mirrors rfl operations⟩
  exact ⟨documents, fun name =>
    generateFile_congr (hasLongWay_agrees agrees indexed inside) documents⟩

/-- Files in another order, whose messages have different schema names if they have different full
names, give another document or another end. -/
def DependsOnOrder (config : Config) (generated : List String)
    (files others : List FileDefinition) : Prop :=
  Rearranges generated files [] others ∧ config.NamesDiffer (.ofFiles generated files) ∧
    (config.buildDocument (.ofFiles generated others)
        (Registry.ofFiles generated files).generatedFiles none).outcome.toOption ≠
      (config.buildDocument (.ofFiles generated files)
        (Registry.ofFiles generated files).generatedFiles none).outcome.toOption

/-- Documents differ if what stands under a key does before they are settled. -/
theorem toOption_ne_of_view {β : Type} {files : List SourceFile}
    (ends : (config.buildDocument first files none).outcome.isOk = true)
    (ends_too : (config.buildDocument second files none).outcome.isOk = true)
    (distinct : (config.unsettledOf first files).componentSchemas.keys.Nodup)
    (distinct_too : (config.unsettledOf second files).componentSchemas.keys.Nodup)
    (key : Scalar) (view : Element → β)
    (differ : ((config.unsettledOf first files).componentSchemas.get? key).map view ≠
      ((config.unsettledOf second files).componentSchemas.get? key).map view) :
    (config.buildDocument first files none).outcome.toOption ≠
      (config.buildDocument second files none).outcome.toOption := by
  have built := outcome_of_isOk ends
  have built_too := outcome_of_isOk ends_too
  intro same
  rw [built, built_too] at same
  rw [← get?_componentSchemas built distinct, ← get?_componentSchemas built_too distinct_too,
    Option.some.inj same] at differ
  exact differ rfl

end Config

/-! ## A library among other files -/

/-- Stamps, which no library mentions. -/
def stampsFile : FileDefinition where
  name := "stamps.proto"
  package := "post"
  messages := [{ name := "Stamp", fields := [{ name := "price", type := .int64 }] }]

/-- What is generated for shelves does not depend on where the file of the books stands, nor on
stamps. -/
theorem shelves_generated_of_unrelated :
    Rearranges ["shelves.proto"] [booksFile, shelvesFile] [stampsFile]
        [stampsFile, shelvesFile, booksFile] ∧
      (Registry.ofFiles ["shelves.proto"] [booksFile, shelvesFile]).Unambiguous ∧
      libraryConfig.Distinguishes (.ofFiles ["shelves.proto"] [booksFile, shelvesFile]) ∧
      libraryConfig.Unrelated (.ofFiles ["shelves.proto"] [booksFile, shelvesFile])
        (.ofFiles ["shelves.proto"] [stampsFile]) ∧
      (libraryConfig.buildDocument (.ofFiles ["shelves.proto"] [booksFile, shelvesFile])
        (Registry.ofFiles ["shelves.proto"] [booksFile, shelvesFile]).generatedFiles
          none).outcome.isOk = true ∧
      (libraryConfig.buildDocument
          (.ofFiles ["shelves.proto"] [stampsFile, shelvesFile, booksFile])
          (Registry.ofFiles ["shelves.proto"] [booksFile, shelvesFile]).generatedFiles
          none).outcome.toOption =
        (libraryConfig.buildDocument (.ofFiles ["shelves.proto"] [booksFile, shelvesFile])
          (Registry.ofFiles ["shelves.proto"] [booksFile, shelvesFile]).generatedFiles
          none).outcome.toOption := by
  have rearranges : Rearranges ["shelves.proto"] [booksFile, shelvesFile] [stampsFile]
      [stampsFile, shelvesFile, booksFile] := by
    refine ⟨?_, rfl⟩
    exact (List.reverse_perm [booksFile, shelvesFile, stampsFile])
  have unambiguous : (Registry.ofFiles ["shelves.proto"] [booksFile, shelvesFile]).Unambiguous :=
    ⟨by decide +kernel, by decide +kernel⟩
  have distinguishes :
      libraryConfig.Distinguishes (.ofFiles ["shelves.proto"] [booksFile, shelvesFile]) :=
    ⟨by decide +kernel, by decide +kernel⟩
  have unrelated : libraryConfig.Unrelated (.ofFiles ["shelves.proto"] [booksFile, shelvesFile])
      (.ofFiles ["shelves.proto"] [stampsFile]) :=
    ⟨⟨by decide +kernel, by decide +kernel⟩, by decide +kernel, by decide +kernel⟩
  obtain ⟨-, same⟩ := Config.generated_of_unrelated rearranges unambiguous distinguishes unrelated
  exact ⟨rearranges, unambiguous, distinguishes, unrelated, by decide +kernel,
    (same none _ fun _ => id).1⟩

/-- Books of a genre. -/
def novelsFile : FileDefinition where
  name := "novels.proto"
  package := "library"
  messages := [{ name := "Novel", fields := [
    { name := "title", type := .string },
    { name := "genre", type := .enum, typeName := ".library.Genre" }] }]
  services := [readingService "Novels" ".library.Novel" "/novels/{title}"]

/-- The genres of some file. -/
def genresFile (name : String) (genres : List String) : FileDefinition where
  name
  package := "library"
  enums := [{ name := "Genre", values := genres.map fun genre => { name := genre } }]

/-- Errors. -/
def statusFile : FileDefinition where
  name := "google/rpc/status.proto"
  package := "google.rpc"
  messages := [{ name := "Status", fields := [{ name := "code", type := .int32 }] }]

/-- A message under the schema name of any message. -/
def parcelsFile : FileDefinition where
  name := "parcels.proto"
  package := "post"
  messages := [{ name := "GoogleProtobufAny", fields := [{ name := "weight", type := .int32 }] }]

/-- Letters with what comes with them. -/
def lettersFile : FileDefinition where
  name := "letters.proto"
  package := "post"
  messages := [{ name := "Letter", fields := [
    { name := "number", type := .string },
    { name := "failure", type := .message, typeName := ".google.rpc.Status" },
    { name := "parcel", type := .message, typeName := ".post.GoogleProtobufAny" }] }]
  services := [readingService "Letters" ".post.Letter" "/letters/{number}"]

/-- If a message or an enumeration is defined twice, or the schema of an error brings one under the
name of another message, the order of files that are not described matters, though all messages that
differ in their full names differ in their schema names. -/
theorem twins_depend_on_order :
    libraryConfig.DependsOnOrder ["shelves.proto"] [booksFile, reprintsFile, shelvesFile]
        [reprintsFile, booksFile, shelvesFile] ∧
      libraryConfig.DependsOnOrder ["novels.proto"]
        [genresFile "first.proto" ["NOVEL"], genresFile "second.proto" ["ESSAY"], novelsFile]
        [genresFile "second.proto" ["ESSAY"], genresFile "first.proto" ["NOVEL"], novelsFile] ∧
      Config.DependsOnOrder { libraryConfig with defaultResponse := false } ["letters.proto"]
        [statusFile, parcelsFile, lettersFile] [parcelsFile, statusFile, lettersFile] := by
  refine ⟨⟨⟨.swap _ _ _, rfl⟩, by decide +kernel, ?_⟩, ⟨⟨.swap _ _ _, rfl⟩, by decide +kernel, ?_⟩,
    ⟨⟨.swap _ _ _, rfl⟩, by decide +kernel, ?_⟩⟩
  · exact Config.toOption_ne_of_view (by decide +kernel) (by decide +kernel) (by decide +kernel)
      (by decide +kernel) (.string "Book") (fun schema => (schema.table "properties").keys)
      (by decide +kernel)
  · exact Config.toOption_ne_of_view (by decide +kernel) (by decide +kernel) (by decide +kernel)
      (by decide +kernel) (.string "Novel") (fun schema => (schema.table "properties").map
        fun property => (property.2.list "enum").map Value.string?) (by decide +kernel)
  · exact Config.toOption_ne_of_view (by decide +kernel) (by decide +kernel) (by decide +kernel)
      (by decide +kernel) (.string "GoogleProtobufAny")
      (fun schema => (schema.table "properties").keys) (by decide +kernel)

end ServiceDoc
