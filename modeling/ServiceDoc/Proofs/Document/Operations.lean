import ServiceDoc.Proofs.Document.MessageSchema
import ServiceDoc.Proofs.Operation.Reflect

/-!
# Operations of a document

Adding the operations of a file changes the document outside its components, notes the names that
the operations refer to, and adds no component schema but those of the default error response.
Without annotations an operation refers to nothing but these names.
-/

namespace ServiceDoc

open Build Workspace

/-- A service without annotations that an operation would take data from. -/
structure Service.Plain (service : Service) : Prop where
  /-- The comment of the service has none. -/
  shared : Unannotated (service.comment.payload? .service)
  methods : ∀ method ∈ service.methods, Unannotated (method.comment.payload? .operation)

instance (service : Service) : Decidable service.Plain :=
  decidable_of_iff (Unannotated (service.comment.payload? .service) ∧
      ∀ method ∈ service.methods, Unannotated (method.comment.payload? .operation))
    ⟨fun plain => ⟨plain.1, plain.2⟩, fun plain => ⟨plain.shared, plain.methods⟩⟩

/-- A binding of a method is an operation of the document: its verb is usual, and the input of the
method is known. -/
def Registry.Operates (registry : Registry) (method : Method) (rule : Rule) : Prop :=
  rule.verb.isSupported = true ∧ (registry.message? method.definition.input).isSome

instance (registry : Registry) (method : Method) (rule : Rule) :
    Decidable (registry.Operates method rule) :=
  inferInstanceAs (Decidable (_ ∧ _))

/-- A service has an operation. -/
def Service.Operates (registry : Registry) (service : Service) : Prop :=
  ∃ method ∈ service.methods, ∃ rule ∈ method.definition.rules,
    registry.Operates method (.ofDefinition rule)

instance (registry : Registry) (service : Service) : Decidable (service.Operates registry) :=
  inferInstanceAs (Decidable (∃ method ∈ service.methods, ∃ rule ∈ method.definition.rules,
    registry.Operates method (.ofDefinition rule)))

/-- A file without annotations that the document would take data from. -/
structure SourceFile.Plain (file : SourceFile) : Prop where
  document : Unannotated (file.payload? .document)
  services : ∀ service ∈ file.services, service.Plain

instance (file : SourceFile) : Decidable file.Plain :=
  decidable_of_iff (Unannotated (file.payload? .document) ∧
      ∀ service ∈ file.services, service.Plain)
    ⟨fun plain => ⟨plain.1, plain.2⟩, fun plain => ⟨plain.document, plain.services⟩⟩

/-- A file has an operation, in a service that is to be described. -/
def Config.Operates (config : Config) (registry : Registry) (file : SourceFile) : Prop :=
  ∃ service ∈ file.services, config.admits service = true ∧ service.Operates registry

namespace Operation

variable {names : String → Prop} {operation : Element}

theorem resolvesIn_completeHeaders (resolves : operation.ResolvesIn names) :
    (completeHeaders operation).ResolvesIn names := by
  have parameters := resolves.many "parameters"
  unfold completeHeaders
  split
  · exact resolves
  · refine resolves.set (by decide) (Content.resolvesIn_many.mpr fun parameter member => ?_)
    obtain ⟨inner, inside, rfl⟩ := List.mem_map.mp member
    have inner_resolves := parameters inner inside
    dsimp only
    split
    · exact inner_resolves.set (by decide)
        (Content.resolvesIn_one.mpr (Schema.resolvesIn_ofType "string"))
    · exact inner_resolves

theorem resolvesIn_separateTags {finished : Element} (resolves : operation.ResolvesIn names)
    (separated : separateTags operation = (finished, none)) : finished.ResolvesIn names := by
  unfold separateTags at separated
  split at separated
  · obtain ⟨rfl, -⟩ := Prod.mk.inj separated
    exact (resolves.withExtensions _).set (by decide) Content.resolvesIn_list
  · simp at separated

end Operation

namespace Workspace

/-- The second workspace is the first after changes of the document outside its components, but for
notices. -/
structure Edits (work after : Workspace) : Prop where
  required : after.required = work.required
  finished : after.finished = work.finished
  schemas : after.schemas = work.schemas

end Workspace

namespace Config

variable {config : Config} {registry : Registry} {work after : Workspace}

/-- The last touches to an operation change nothing else, and bring no reference. -/
theorem finishOperation_runs {annotated operation : Element} {path given : String}
    (runs : Runs (match Operation.separateTags (Operation.completeHeaders annotated) with
      | (finished, none) => return (finished, given)
      | (_, some failure) => fail failure) work (operation, path) after) :
    after = work ∧ path = given ∧
      ∀ names, annotated.ResolvesIn names → operation.ResolvesIn names := by
  split at runs
  next finished separated =>
    obtain ⟨same, rfl⟩ := runs_pure.mp runs
    obtain ⟨rfl, rfl⟩ := Prod.mk.inj same
    exact ⟨rfl, rfl, fun _ resolves => Operation.resolvesIn_separateTags
      (Operation.resolvesIn_completeHeaders resolves) separated⟩
  next => exact (runs_fail.mp runs).elim

/-- A bound operation does to the workspace what assembling it does, whatever annotations add to it.
Without annotations it refers to what is noted. -/
theorem boundOperation_runs {binding : Binding} {shared : Option Element} {input : Message}
    {operation : Element} {path : String}
    (known : ∃ entry ∈ registry.messages, entry.2 = input)
    (runs : (config.boundOperation registry binding shared input).Runs work (operation, path)
      after) :
    Mentions (config.Knows registry) (config.finishDefaults work) after ∧
      (shared = none → Unannotated (binding.method.comment.payload? .operation) →
        operation.ResolvesIn after.Covers) := by
  have known_output : ∀ message ∈ registry.message? binding.method.definition.output,
      ∃ entry ∈ registry.messages, entry.2 = message :=
    fun message found => ⟨_, Registry.mem_of_message? found, rfl⟩
  unfold boundOperation at runs
  simp only [runs_bind, runs_comment] at runs
  obtain ⟨description, _, ⟨-, rfl⟩, assembled, between, made, rest⟩ := runs
  obtain ⟨assembled, assembled_path⟩ := assembled
  obtain ⟨mentions, resolves⟩ := assemble_runs
    (fun message member => Option.mem_some.mp member ▸ known) known_output made
  obtain ⟨entries, _, ⟨read, rfl⟩, rest⟩ := rest
  cases entries with
  | none =>
      simp only [runs_bind, runs_pure] at rest
      obtain ⟨annotated, _, ⟨rfl, rfl⟩, rest⟩ := rest
      obtain ⟨rfl, -, keeps⟩ := finishOperation_runs rest
      refine ⟨mentions, fun alone _ => keeps _ ?_⟩
      subst alone
      exact resolves
  | some entries =>
      simp only [runs_bind, runs_annotated, runs_pure] at rest
      obtain ⟨loaded, _, ⟨-, rfl⟩, annotated, _, ⟨rfl, rfl⟩, rest⟩ := rest
      obtain ⟨rfl, -⟩ := finishOperation_runs rest
      exact ⟨mentions.trans (.notices _ _), fun _ plain => (plain entries read).elim⟩

/-- Putting an operation in place, under a verb that is supported, sets it in the item of its path.
-/
theorem addOperation_places {path : String} {verb : Verb} {operation : Element}
    (runs : (addOperation path verb operation).Runs work () after) :
    verb.isSupported = true ∧ ∃ notices, after = { work with
      document := work.document.set "paths" (.table ((work.document.table "paths").put
        (.string path) ((((work.document.table "paths").get? (.string path)).getD
          (.empty .pathItem)).set verb.word (.one operation))))
      notices } := by
  unfold addOperation at runs
  rw [runs_bind] at runs
  obtain ⟨_, _, read, runs⟩ := runs
  obtain ⟨rfl, rfl⟩ := runs_get.mp read
  cases supported : verb.isSupported with
  | false => simp [supported] at runs
  | true =>
      refine ⟨rfl, ?_⟩
      simp only [supported, Bool.not_true, if_false, Bool.false_eq_true] at runs
      split at runs
      · simp only [runs_bind, runs_report, runs_modifyDocument] at runs
        obtain ⟨_, _, rfl, rfl⟩ := runs
        exact ⟨_, rfl⟩
      · exact ⟨_, runs_modifyDocument.mp runs⟩

/-- Putting an operation in place changes the document outside its components, and brings no
reference but those of the operation. -/
theorem addOperation_runs {path : String} {verb : Verb} {operation : Element}
    (runs : (addOperation path verb operation).Runs work () after) :
    Edits work after ∧ ∀ names, work.document.ResolvesIn names → operation.ResolvesIn names →
      after.document.ResolvesIn names := by
  let paths := work.document.table "paths"
  let item := (paths.get? (.string path)).getD (.empty .pathItem)
  obtain ⟨-, notices, rfl⟩ := addOperation_places runs
  refine ⟨⟨rfl, rfl, Element.componentSchemas_set_of_ne _ _ (by decide)⟩,
    fun names resolves inner => resolves.set (by decide) (Content.resolvesIn_table.mpr
      (Entries.forall_put (resolves.table "paths") ?_))⟩
  have item_resolves : item.ResolvesIn names := by
    change ((paths.get? (.string path)).getD (.empty .pathItem)).ResolvesIn names
    cases found : paths.get? (.string path) with
    | none => exact Element.resolvesIn_empty (by decide)
    | some item => exact resolves.table "paths" _ (Entries.mem_of_get? found)
  have plain : "$ref" ≠ verb.word := by cases verb <;> decide
  exact item_resolves.set plain (Content.resolvesIn_one.mpr inner)

/-! ## What adding operations keeps -/

/-- Every reference in the document is noted or done, and what is done is among the component
schemas. -/
structure Sound (work : Workspace) : Prop where
  resolves : work.document.ResolvesIn work.Covers
  stored : ∀ name ∈ work.finished, .string name ∈ work.schemas.keys

theorem Sound.later {allowed : String → Prop} (sound : Sound work)
    (mentions : Mentions allowed work after) : Sound after := by
  refine ⟨?_, ?_⟩
  · rw [mentions.document]
    exact sound.resolves.mono mentions.covers
  · rw [mentions.finished, mentions.schemas]
    exact sound.stored

/-- The names that the default error response brings, the latest first. -/
def defaultNames (config : Config) : List String :=
  [config.schemaName statusIdentity, config.schemaName anyIdentity]

/-- The component schemas that the default error response brings. -/
def defaultSchemas (config : Config) : Entries Element :=
  [(.string (config.schemaName anyIdentity), WellKnown.anySchema),
    (.string (config.schemaName statusIdentity),
      WellKnown.statusSchema (config.schemaName anyIdentity))]

/-- The component schemas of the default error response are done, if the configuration asks for
them. -/
def HasDefaults (config : Config) (work : Workspace) : Prop :=
  config.defaultResponse = true → ∀ name ∈ config.defaultNames, name ∈ work.finished

theorem HasDefaults.mono (given : config.HasDefaults work)
    (more : ∀ name ∈ work.finished, name ∈ after.finished) : config.HasDefaults after :=
  fun default name member => more name (given default name member)

/-- There are no component schemas, or those of the default error response since there is an
operation. -/
def Settled (config : Config) (operated : Prop) (work : Workspace) : Prop :=
  (work.finished = [] ∧ work.schemas = []) ∨
    (operated ∧ config.defaultResponse = true ∧ work.finished = config.defaultNames ∧
      work.schemas = config.defaultSchemas)

/-- What is kept from one workspace to a later one while operations are added. Some of it is kept
only without annotations, and some only if schema names differ. -/
structure Keeps (config : Config) (registry : Registry) (operated plain : Prop)
    (work after : Workspace) : Prop where
  finished : ∀ name ∈ work.finished, name ∈ after.finished
  /-- References are to messages of the registry. -/
  known : Known config registry work → Known config registry after
  /-- Names are noted only with the component schemas of the default error response. -/
  noted : after.required = work.required ∨ config.HasDefaults after
  /-- Without annotations, no reference is brought that is not noted. -/
  sound : plain → Sound work → Sound after
  /-- No component schema is added but those of the default error response. -/
  settled : config.schemaName anyIdentity ≠ config.schemaName statusIdentity →
    config.Settled operated work → config.Settled operated after

variable {operated plain : Prop} {between : Workspace}

namespace Keeps

theorem refl (work : Workspace) : config.Keeps registry operated plain work work :=
  ⟨fun _ => id, id, .inl rfl, fun _ => id, fun _ => id⟩

theorem trans (first : config.Keeps registry operated plain work between)
    (second : config.Keeps registry operated plain between after) :
    config.Keeps registry operated plain work after where
  finished name member := second.finished name (first.finished name member)
  known start := second.known (first.known start)
  noted := by
    rcases second.noted with same | given
    · rw [same]
      exact first.noted.imp_right fun given => given.mono second.finished
    · exact .inr given
  sound alone start := second.sound alone (first.sound alone start)
  settled apart start := second.settled apart (first.settled apart start)

/-- Referring to messages of the registry keeps all of it, with the component schemas of the default
error response done. -/
theorem ofMentions (mentions : Mentions (config.Knows registry) work after)
    (noted : after.required = work.required ∨ config.HasDefaults work) :
    config.Keeps registry operated plain work after where
  finished name member := mentions.finished ▸ member
  known start := start.later mentions
  noted := noted.imp_right fun given => given.mono fun _ member => mentions.finished ▸ member
  sound _ start := start.later mentions
  settled _ start := by
    unfold Settled
    rw [mentions.finished, mentions.schemas]
    exact start

/-- So do changes of the document outside its components that bring no new reference. -/
theorem ofEdits (edits : Edits work after)
    (resolves : plain → work.document.ResolvesIn work.Covers →
      after.document.ResolvesIn work.Covers) :
    config.Keeps registry operated plain work after where
  finished name member := edits.finished ▸ member
  known start := ⟨edits.required ▸ start.among, edits.required ▸ start.distinct⟩
  noted := .inl edits.required
  sound alone start := by
    have covers : after.Covers = work.Covers := by
      unfold Covers
      rw [edits.required, edits.finished]
    refine ⟨covers ▸ resolves alone start.resolves, ?_⟩
    rw [edits.finished, edits.schemas]
    exact start.stored
  settled _ start := by
    unfold Settled
    rw [edits.finished, edits.schemas]
    exact start

end Keeps

/-- A schema that refers to what is noted can be added. -/
theorem Sound.finish {schema : Element} (sound : Sound work)
    (resolves : schema.ResolvesIn work.Covers) (name : String) :
    Sound (work.finish name schema) := by
  by_cases done : name ∈ work.finished
  · rw [finish_of_mem done]
    exact sound
  · refine ⟨?_, fun other member => ?_⟩
    · rw [finish_of_notMem done]
      exact (sound.resolves.putSchema resolves name).mono fun other covered =>
        covered.imp id fun inside => .tail _ inside
    · rw [schemas_finish done, Entries.mem_keys_put]
      rcases mem_finished_finish.mp member with rfl | member
      · exact .inl rfl
      · exact .inr (sound.stored other member)

/-- Without any component schema, the default error response brings its own. -/
theorem finishDefaults_of_fresh (default : config.defaultResponse = true)
    (apart : config.schemaName anyIdentity ≠ config.schemaName statusIdentity)
    (finished : work.finished = []) (schemas : work.schemas = []) :
    (config.finishDefaults work).finished = config.defaultNames ∧
      (config.finishDefaults work).schemas = config.defaultSchemas := by
  have any : config.schemaName anyIdentity ∉ work.finished := by
    rw [finished]
    exact List.not_mem_nil
  have status : config.schemaName statusIdentity ∉
      (work.finish (config.schemaName anyIdentity) WellKnown.anySchema).finished := by
    rw [mem_finished_finish, finished]
    rintro (same | member)
    · exact apart same.symm
    · exact List.not_mem_nil member
  rw [finishDefaults, if_pos default]
  constructor
  · rw [finish_of_notMem status]
    change _ :: Workspace.finished _ = _
    rw [finish_of_notMem any]
    change _ :: _ :: work.finished = _
    rw [finished]
    rfl
  · rw [schemas_finish status, schemas_finish any, schemas]
    simp only [Entries.put, Scalar.string.injEq, apart, if_false, defaultSchemas]

/-- The component schemas of the default error response come with operations only. -/
theorem keeps_finishDefaults (operates : operated) :
    config.Keeps registry operated plain work (config.finishDefaults work) := by
  by_cases default : config.defaultResponse
  · have same : config.finishDefaults work = (work.finish (config.schemaName anyIdentity)
        WellKnown.anySchema).finish (config.schemaName statusIdentity)
        (WellKnown.statusSchema (config.schemaName anyIdentity)) := if_pos default
    rw [same]
    refine ⟨fun name member => mem_finished_finish.mpr (.inr (mem_finished_finish.mpr
      (.inr member))), fun start => ?known, .inl (by simp), fun _ start => ?sound,
      fun apart start => ?settled⟩
    case known => exact ⟨by simpa using start.among, by simpa using start.distinct⟩
    case sound =>
      exact (start.finish WellKnown.resolvesIn_anySchema _).finish
        (WellKnown.resolvesIn_statusSchema covers_finish_self) _
    case settled =>
      refine .inr ⟨operates, default, ?_⟩
      rcases start with ⟨finished, schemas⟩ | ⟨-, -, finished, schemas⟩
      · rw [← same]
        exact finishDefaults_of_fresh default apart finished schemas
      · have any : config.schemaName anyIdentity ∈ work.finished := by
          rw [finished]
          exact .tail _ (.head _)
        have status : config.schemaName statusIdentity ∈ work.finished := by
          rw [finished]
          exact .head _
        rw [finish_of_mem any, finish_of_mem status]
        exact ⟨finished, schemas⟩
  · rw [finishDefaults, if_neg default]
    exact .refl work

/-! ## Bindings, services and files -/

theorem HasDefaults.later (keeps : config.Keeps registry operated plain work after)
    (given : config.HasDefaults work) : config.HasDefaults after :=
  given.mono keeps.finished

theorem hasDefaults_finishDefaults : config.HasDefaults (config.finishDefaults work) := by
  intro default name member
  rw [finishDefaults, if_pos default]
  rcases List.mem_cons.mp member with rfl | member
  · exact mem_finished_finish.mpr (.inl rfl)
  · rw [List.mem_singleton.mp member]
    exact mem_finished_finish.mpr (.inr (mem_finished_finish.mpr (.inl rfl)))

/-- A binding is skipped with a notice, or its operation is made and put in place. -/
theorem addBinding_cases {binding : Binding} {shared : Option Element} {added : Bool}
    (runs : (config.addBinding registry shared binding).Runs work added after) :
    (¬registry.Operates binding.method binding.rule ∧ added = false ∧ Refers [] work after) ∨
      (registry.Operates binding.method binding.rule ∧ added = true ∧
        ∃ input operation path between,
          registry.message? binding.method.definition.input = some input ∧
          (config.boundOperation registry binding shared input).Runs work (operation, path)
            between ∧
          (addOperation (config.pathPrefix ++ path) binding.rule.verb operation).Runs between ()
            after) := by
  have skipped {notice : Notice} (runs : Runs (do report notice; return false) work added after) :
      added = false ∧ Refers [] work after := by
    simp only [runs_bind, runs_report, runs_pure] at runs
    obtain ⟨_, _, rfl, rfl, rfl⟩ := runs
    exact ⟨rfl, .notices _ _⟩
  unfold addBinding at runs
  cases supported : binding.rule.verb.isSupported with
  | false =>
      simp only [supported, Bool.not_false, if_true] at runs
      exact .inl ⟨fun holds => by simp [Registry.Operates, supported] at holds, skipped runs⟩
  | true =>
      simp only [supported, Bool.not_true, if_false, Bool.false_eq_true] at runs
      cases found : registry.message? binding.method.definition.input with
      | none =>
          rw [found] at runs
          exact .inl ⟨fun holds => by simp [Registry.Operates, found] at holds, skipped runs⟩
      | some input =>
          simp only [found, runs_bind, runs_pure] at runs
          obtain ⟨⟨operation, path⟩, between, bound, _, _, put, rfl, rfl⟩ := runs
          exact .inr ⟨⟨supported, by rw [found]; rfl⟩, rfl, input, operation, path, between, rfl,
            bound, put⟩

/-- A binding that is an operation brings the component schemas of the default error response. -/
theorem addBinding_runs {binding : Binding} {shared : Option Element} {added : Bool}
    (operates : registry.Operates binding.method binding.rule → operated)
    (alone : plain → shared = none ∧ Unannotated (binding.method.comment.payload? .operation))
    (runs : (config.addBinding registry shared binding).Runs work added after) :
    config.Keeps registry operated plain work after ∧
      (registry.Operates binding.method binding.rule → config.HasDefaults after) := by
  rcases addBinding_cases runs with
    ⟨idle, -, refers⟩ | ⟨holds, -, input, operation, path, between, found, bound, put⟩
  · exact ⟨.ofMentions (.ofRefers refers) (.inl refers.required), fun holds => (idle holds).elim⟩
  · obtain ⟨mentions, resolves⟩ :=
      boundOperation_runs ⟨_, Registry.mem_of_message? found, rfl⟩ bound
    obtain ⟨edits, inner⟩ := addOperation_runs put
    have settles : config.Keeps registry operated plain work (config.finishDefaults work) :=
      keeps_finishDefaults (operates holds)
    have assembled : config.Keeps registry operated plain (config.finishDefaults work) between :=
      .ofMentions mentions (.inr hasDefaults_finishDefaults)
    have placed : config.Keeps registry operated plain between after :=
      .ofEdits edits fun plain start => inner _ start (resolves (alone plain).1 (alone plain).2)
    exact ⟨(settles.trans assembled).trans placed,
      fun _ => (hasDefaults_finishDefaults.later assembled).later placed⟩

theorem mem_bindings {way : List Nat} {service : Service} {binding : Binding}
    (member : binding ∈ bindings way service) : binding.method ∈ service.methods ∧
      ∃ rule ∈ binding.method.definition.rules, binding.rule = .ofDefinition rule := by
  obtain ⟨⟨method, position⟩, inside, member⟩ := List.mem_flatMap.mp member
  obtain ⟨⟨rule, index⟩, given, rfl⟩ := List.mem_map.mp member
  exact ⟨List.fst_mem_of_mem_zipIdx inside, rule, List.fst_mem_of_mem_zipIdx given, rfl⟩

/-- What stands at some position of a list. -/
theorem exists_mem_zipIdx {α : Type} {items : List α} {item : α} (member : item ∈ items) :
    ∃ position, (item, position) ∈ items.zipIdx := by
  rw [← List.zipIdx_map_fst 0 items] at member
  obtain ⟨⟨item, position⟩, inside, rfl⟩ := List.mem_map.mp member
  exact ⟨position, inside⟩

/-- What follows the items of a list alone does not depend on where they stand. -/
theorem flatMap_zipIdx {α γ : Type} (items : List α) (comes : α → List γ) :
    (items.zipIdx.flatMap fun step => comes step.1) = items.flatMap comes := by
  conv_rhs => rw [← List.zipIdx_map_fst 0 items]
  rw [List.flatMap_map]

theorem exists_binding {way : List Nat} {service : Service} {method : Method}
    {rule : RuleDefinition} (inside : method ∈ service.methods)
    (given : rule ∈ method.definition.rules) : ∃ binding ∈ bindings way service,
      binding.method = method ∧ binding.rule = .ofDefinition rule := by
  obtain ⟨position, inside⟩ := exists_mem_zipIdx inside
  obtain ⟨index, given⟩ := exists_mem_zipIdx given
  let binding : Binding :=
    { way := way ++ [position + 1, index], service, method, rule := .ofDefinition rule }
  have among : binding ∈ bindings way service :=
    List.mem_flatMap.mpr ⟨(method, position), inside, List.mem_map.mpr ⟨(rule, index), given, rfl⟩⟩
  exact ⟨binding, among, rfl, rfl⟩

theorem sharedData_runs {way : List Nat} {service : Service} {shared : Option Element}
    (runs : (sharedData way service).Runs work shared after) :
    Refers [] work after ∧
      (Unannotated (service.comment.payload? .service) → shared = none) := by
  unfold sharedData at runs
  simp only [runs_bind, runs_comment] at runs
  obtain ⟨entries, _, ⟨read, rfl⟩, rest⟩ := runs
  cases entries with
  | none =>
      obtain ⟨rfl, rfl⟩ := runs_pure.mp rest
      exact ⟨.refl _, fun _ => rfl⟩
  | some entries =>
      simp only [runs_bind, runs_annotated, runs_pure] at rest
      obtain ⟨loaded, _, ⟨-, rfl⟩, -, rfl⟩ := rest
      exact ⟨.notices _ _, fun plain => (plain entries read).elim⟩

/-- A service with an operation brings the component schemas of the default error response. -/
theorem addService_runs {way : List Nat} {service : Service}
    (operates : service.Operates registry → operated) (alone : plain → service.Plain)
    (runs : (config.addService registry way service).Runs work () after) :
    config.Keeps registry operated plain work after ∧
      (service.Operates registry → config.HasDefaults after) := by
  unfold addService at runs
  simp only [runs_bind] at runs
  obtain ⟨shared, _, data, added, bound, rounds, rest⟩ := runs
  obtain ⟨refers, unshared⟩ := sharedData_runs data
  have round (binding : Binding) (member : binding ∈ bindings way service)
      {before between : Workspace} {added : Bool}
      (runs : (config.addBinding registry shared binding).Runs before added between) :
      config.Keeps registry operated plain before between ∧
        (registry.Operates binding.method binding.rule → config.HasDefaults between) := by
    obtain ⟨inside, rule, given, same⟩ := mem_bindings member
    exact addBinding_runs
      (fun holds => operates ⟨binding.method, inside, rule, given, same ▸ holds⟩)
      (fun plain => ⟨unshared (alone plain).shared, (alone plain).methods _ inside⟩) runs
  obtain ⟨keeps, each⟩ := Runs.mapM_relates (config.Keeps registry operated plain)
    (fun work (binding : Binding) _ =>
      registry.Operates binding.method binding.rule → config.HasDefaults work)
    Keeps.refl Keeps.trans (fun keeps given holds => (given holds).later keeps)
    (fun binding member _ _ _ runs => round binding member runs) rounds
  have tagged : config.Keeps registry operated plain bound after := by
    split at rest
    · simp only [runs_bind, runs_comment, runs_modifyDocument] at rest
      obtain ⟨description, _, ⟨-, rfl⟩, rfl⟩ := rest
      refine .ofEdits ⟨rfl, rfl, Element.componentSchemas_set_of_ne _ _ (by decide)⟩
        fun _ start => start.set (by decide) (Content.resolvesIn_many.mpr fun tag member => ?_)
      rcases List.mem_append.mp member with member | member
      · exact start.many "tags" tag member
      · exact List.mem_singleton.mp member ▸
          ((Element.resolvesIn_empty (by decide)).setText (by decide) _).setText (by decide) _
    · obtain ⟨-, rfl⟩ := runs_pure.mp rest
      exact .refl _
  have read : config.Keeps registry operated plain work _ :=
    .ofMentions (.ofRefers refers) (.inl refers.required)
  refine ⟨(read.trans keeps).trans tagged, ?_⟩
  rintro ⟨method, inside, rule, given, holds⟩
  obtain ⟨binding, among, rfl, same⟩ := exists_binding inside given
  exact (forall_of_forall₂ each binding among (same ▸ holds)).later tagged

/-- Lay what a file says about the document over the document. -/
def overlayFile (file : SourceFile) : Build Unit :=
  match file.payload? .document with
  | .error error => fail (.ofFileComment error)
  | .ok none => return
  | .ok (some entries) => do
    if !entries.isEmpty then
      let loaded ← annotated file.name (Element.load .document entries).limited
      modifyDocument fun document => document.merge loaded

/-- Add the operations of the services of a file. -/
def addServices (config : Config) (registry : Registry) (file : SourceFile) : Build Unit :=
  file.services.zipIdx.forM fun item =>
    if config.admits item.1 then config.addService registry [file.position, item.2] item.1
    else report (.filteredService item.1.fullName)

/-- Adding a file lays what it says over the document and then adds its operations. -/
theorem addFile_eq (file : SourceFile) : config.addFile registry file =
    (do overlayFile file; config.addServices registry file) := by
  unfold addFile overlayFile
  cases file.payload? .document with
  | error error => rfl
  | ok entries =>
      cases entries with
      | none => rfl
      | some entries =>
          dsimp only
          split
          · simp only [bind_assoc]
            rfl
          · rfl

theorem overlayFile_runs {file : SourceFile} (runs : (overlayFile file).Runs work () after) :
    after.required = work.required ∧ after.finished = work.finished ∧
      (Unannotated (file.payload? .document) → after = work) := by
  unfold overlayFile at runs
  cases read : file.payload? .document with
  | error error => simp [read] at runs
  | ok entries =>
      cases entries with
      | none =>
          rw [read] at runs
          obtain ⟨-, rfl⟩ := runs_pure.mp runs
          exact ⟨rfl, rfl, fun _ => rfl⟩
      | some entries =>
          have annotated :
              Unannotated (.ok (some entries) : Except FileCommentError _) → after = work :=
            fun plain => (plain entries rfl).elim
          simp only [read] at runs
          split at runs
          · simp only [runs_bind, runs_annotated, runs_modifyDocument] at runs
            obtain ⟨loaded, _, ⟨-, rfl⟩, rfl⟩ := runs
            exact ⟨rfl, rfl, annotated⟩
          · obtain ⟨-, rfl⟩ := runs_pure.mp runs
            exact ⟨rfl, rfl, annotated⟩

/-- The services of a file bring nothing but their operations. -/
theorem addServices_runs {file : SourceFile} (operates : config.Operates registry file → operated)
    (alone : plain → ∀ service ∈ file.services, service.Plain)
    (runs : (config.addServices registry file).Runs work () after) :
    config.Keeps registry operated plain work after ∧
      (config.Operates registry file → config.HasDefaults after) := by
  have round (item : Service × Nat) (member : item ∈ file.services.zipIdx)
      {before between : Workspace}
      (runs : Runs (do
        if config.admits item.1 then config.addService registry [file.position, item.2] item.1
        else report (.filteredService item.1.fullName)) before () between) :
      config.Keeps registry operated plain before between ∧
        (config.admits item.1 = true → item.1.Operates registry → config.HasDefaults between) := by
    have inside := List.fst_mem_of_mem_zipIdx member
    by_cases admitted : config.admits item.1
    · rw [if_pos admitted] at runs
      obtain ⟨keeps, defaults⟩ := addService_runs
        (fun holds => operates ⟨item.1, inside, admitted, holds⟩)
        (fun plain => alone plain item.1 inside) runs
      exact ⟨keeps, fun _ => defaults⟩
    · rw [if_neg admitted] at runs
      obtain rfl := runs_report.mp runs
      exact ⟨.ofMentions (.notices _ _) (.inl rfl), fun holds => (admitted holds).elim⟩
  obtain ⟨keeps, each⟩ := Runs.forM_relates (config.Keeps registry operated plain)
    (fun work (item : Service × Nat) =>
      config.admits item.1 = true → item.1.Operates registry → config.HasDefaults work)
    Keeps.refl Keeps.trans
    (fun keeps given admitted holds => (given admitted holds).later keeps)
    (fun item member _ _ _ runs => round item member runs) runs
  refine ⟨keeps, ?_⟩
  rintro ⟨service, inside, admitted, holds⟩
  obtain ⟨position, member⟩ := exists_mem_zipIdx inside
  exact each (service, position) member admitted holds

/-- A file without an annotation of the document brings nothing but its operations. -/
theorem addFile_runs {file : SourceFile} (document : Unannotated (file.payload? .document))
    (operates : config.Operates registry file → operated) (alone : plain → file.Plain)
    (runs : (config.addFile registry file).Runs work () after) :
    config.Keeps registry operated plain work after ∧
      (config.Operates registry file → config.HasDefaults after) := by
  rw [addFile_eq, runs_bind] at runs
  obtain ⟨_, between, overlaid, runs⟩ := runs
  obtain rfl := (overlayFile_runs overlaid).2.2 document
  exact addServices_runs operates (fun plain => (alone plain).services) runs

/-- Whatever files say about the document, their operations refer to messages of the registry, and
to none before the component schemas of the default error response are done. -/
theorem known_addFiles {files : List SourceFile} (known : Known config registry work)
    (runs : (files.forM (config.addFile registry)).Runs work () after) :
    Known config registry after ∧
      (after.required = work.required ∨ config.HasDefaults after) := by
  have round (file : SourceFile) {before between : Workspace}
      (held : Known config registry before ∧
        (before.required = work.required ∨ config.HasDefaults before))
      (runs : (config.addFile registry file).Runs before () between) :
      Known config registry between ∧
        (between.required = work.required ∨ config.HasDefaults between) := by
    obtain ⟨known, noted⟩ := held
    rw [addFile_eq, runs_bind] at runs
    obtain ⟨_, overlaid, overlay, runs⟩ := runs
    obtain ⟨required, finished, -⟩ := overlayFile_runs overlay
    have keeps : config.Keeps registry True False overlaid between :=
      (addServices_runs (fun _ => trivial) False.elim runs).1
    refine ⟨keeps.known ⟨required ▸ known.among, required ▸ known.distinct⟩, ?_⟩
    rcases keeps.noted with same | given
    · rw [same, required]
      exact noted.imp_right fun given =>
        given.mono fun name member => keeps.finished name (finished ▸ member)
    · exact .inr given
  have start : Known config registry work ∧
      (work.required = work.required ∨ config.HasDefaults work) := ⟨known, .inl rfl⟩
  exact Runs.forM_preserves (fun file _ _ _ held runs => round file held runs) start runs

/-- The operations of files without annotations of the document. If one of the files has an
operation, the component schemas of the default error response are done, if the configuration asks
for them. -/
theorem addFiles_runs {files : List SourceFile}
    (document : ∀ file ∈ files, Unannotated (file.payload? .document))
    (alone : plain → ∀ file ∈ files, file.Plain)
    (runs : (files.forM (config.addFile registry)).Runs work () after) :
    config.Keeps registry (∃ file ∈ files, config.Operates registry file) plain work after ∧
      ((∃ file ∈ files, config.Operates registry file) → config.HasDefaults after) := by
  obtain ⟨keeps, each⟩ := Runs.forM_relates
    (config.Keeps registry (∃ file ∈ files, config.Operates registry file) plain)
    (fun work file => config.Operates registry file → config.HasDefaults work)
    Keeps.refl Keeps.trans (fun keeps given holds => (given holds).later keeps)
    (fun file member _ _ _ runs => addFile_runs (document file member)
      (fun holds => ⟨file, member, holds⟩) (fun plain => alone plain file member) runs) runs
  refine ⟨keeps, ?_⟩
  rintro ⟨file, member, holds⟩
  exact each file member holds

end Config

end ServiceDoc
