import ServiceDoc.Proofs.Document.Modes
import ServiceDoc.Proofs.Operation.Path

/-!
# Every binding is accounted for

The services of files are gone through in order, their methods and the bindings of these. Each
binding puts its operation under a path and a verb, where it replaces an earlier one, or it is
skipped; a service with an operation gets a tag. So under every path and verb there is the operation
of the last binding that goes there, and what is skipped leaves nothing behind.
-/

namespace ServiceDoc

open Build Workspace

namespace Config

/-- The way of the service of a binding. -/
def Binding.serviceWay (binding : Binding) : List Nat := binding.way.dropLast.dropLast

variable (config : Config) (registry : Registry)

/-! ## Where operations go -/

/-- The path that a template becomes for an input message. -/
def rewritten (path : String) (input : Message) : String :=
  (config.expandPattern (some input) (config.formatPlaceholders (some input) path.toList
    (Template.simpleNames path.length path.toList))).path

/-- The operation of a binding goes under a path and a verb: the verb is usual, the input is known,
and the path is what the template of the binding becomes. -/
def GoesTo (path : Scalar) (verb : String) (method : Method) (rule : Rule) : Prop :=
  rule.verb.isSupported = true ∧ rule.verb.word = verb ∧
    ∃ input ∈ registry.message? method.definition.input,
      path = .string (config.pathPrefix ++ config.rewritten rule.path input)

instance (path : Scalar) (verb : String) (method : Method) (rule : Rule) :
    Decidable (config.GoesTo registry path verb method rule) :=
  inferInstanceAs (Decidable (_ ∧ _ ∧ ∃ input ∈ _, _))

/-- The last of some bindings whose operation goes under a path and a verb. -/
def lastAt (bindings : List Binding) (path : Scalar) (verb : String) : Option Binding :=
  (bindings.filter fun binding =>
    config.GoesTo registry path verb binding.method binding.rule).getLast?

/-- The bindings of the services of some files that are to be described, in order of the files, the
services, the methods and their rules. -/
def bindingsOf (files : List SourceFile) : List Binding :=
  files.flatMap fun file => file.services.zipIdx.flatMap fun (service, position) =>
    if config.admits service then bindings [file.position, position] service else []

/-- The names of those of some services that are to be described and have an operation. -/
def tagNames (services : List Service) : List Value :=
  (services.filter fun service => config.admits service && service.Operates registry).map
    fun service => .string service.name

/-- What a binding comes to from every workspace, with what its service says. -/
def Assembles (binding : Binding) (operation : Element) : Prop :=
  ∃ shared, ∃ input ∈ registry.message? binding.method.definition.input,
    (sharedData binding.serviceWay binding.service).Gives shared ∧
      (config.boundOperation registry binding shared input).Gives
        (operation, config.rewritten binding.rule.path input)

/-- The turn of a service of a file, at a position. -/
def addDescribed (file : SourceFile) (item : Service × Nat) : Build Unit :=
  if config.admits item.1 then config.addService registry [file.position, item.2] item.1
  else report (.filteredService item.1.fullName)

variable {config registry} {binding : Binding} {given others : List Binding} {path : Scalar}
  {verb : String} {work between after : Workspace} {tags more : List Value}

/-- What goes somewhere is an operation. -/
theorem GoesTo.operates {method : Method} {rule : Rule}
    (goes : config.GoesTo registry path verb method rule) : registry.Operates method rule := by
  obtain ⟨supported, -, input, found, -⟩ := goes
  exact ⟨supported, Option.isSome_of_mem found⟩

/-- An operation goes to one path under one verb. -/
theorem goesTo_iff {method : Method} {rule : Rule} {input : Message}
    (supported : rule.verb.isSupported = true)
    (found : registry.message? method.definition.input = some input) :
    config.GoesTo registry path verb method rule ↔
      path = .string (config.pathPrefix ++ config.rewritten rule.path input) ∧
        verb = rule.verb.word := by
  constructor
  · rintro ⟨-, same, other, known, there⟩
    obtain rfl := Option.some.inj (found.symm.trans known)
    exact ⟨there, same.symm⟩
  · rintro ⟨there, same⟩
    exact ⟨supported, same.symm, input, found, there⟩

theorem lastAt_append : config.lastAt registry (given ++ others) path verb =
    (config.lastAt registry others path verb).or (config.lastAt registry given path verb) := by
  unfold lastAt
  rw [List.filter_append, List.getLast?_append]

theorem lastAt_singleton : config.lastAt registry [binding] path verb =
    if config.GoesTo registry path verb binding.method binding.rule then some binding
    else none := by
  unfold lastAt
  simp only [List.filter_cons, List.filter_nil, decide_eq_true_eq]
  split <;> rfl

theorem isSome_lastAt : (config.lastAt registry given path verb).isSome ↔
    ∃ binding ∈ given, config.GoesTo registry path verb binding.method binding.rule := by
  unfold lastAt
  simp only [List.getLast?_isSome, ne_eq, List.filter_eq_nil_iff, decide_eq_true_eq, not_forall,
    not_not, exists_prop]

/-- A binding of a service has its way below that of the service. -/
theorem serviceWay_of_mem_bindings {way : List Nat} {service : Service}
    (member : binding ∈ bindings way service) :
    binding.serviceWay = way ∧ binding.service = service := by
  obtain ⟨⟨method, position⟩, -, member⟩ := List.mem_flatMap.mp member
  obtain ⟨⟨rule, index⟩, -, rfl⟩ := List.mem_map.mp member
  refine ⟨?_, rfl⟩
  unfold Binding.serviceWay
  rw [List.dropLast_append_of_ne_nil (List.cons_ne_nil _ _)]
  exact List.dropLast_concat

/-- The path of an operation does not depend on the workspace. -/
theorem path_of_boundOperation {shared : Option Element} {input : Message} {operation : Element}
    {path : String} (runs : (config.boundOperation registry binding shared input).Runs work
      (operation, path) after) : path = config.rewritten binding.rule.path input := by
  unfold boundOperation at runs
  simp only [runs_bind, runs_comment] at runs
  obtain ⟨description, _, -, ⟨assembled, given⟩, between, made, entries, _, -, rest⟩ := runs
  obtain rfl : path = given := by
    cases entries with
    | none =>
        obtain ⟨annotated, _, -, rest⟩ := runs_bind.mp rest
        exact (finishOperation_runs rest).2.1
    | some entries =>
        simp only [runs_bind] at rest
        obtain ⟨loaded, _, -, annotated, _, -, rest⟩ := rest
        exact (finishOperation_runs rest).2.1
  obtain ⟨expanded, _, -, expands, rfl, -⟩ := parameters_of_assemble made
  unfold expandPath at expands
  simp only [runs_bind, runs_pure] at expands
  obtain ⟨parameters, _, -, rfl, -⟩ := expands
  rfl

/-! ## What bindings do -/

/-- An effect puts the operations of bindings in place, the last one where several go, and adds tags
with names. -/
structure Places (config : Config) (registry : Registry)
    (bindings : List Binding) (tags : List Value) (effect : Effect) : Prop where
  slots : ∀ path verb, Option.Rel (config.Assembles registry)
    (config.lastAt registry bindings path verb) (effect.slots path verb)
  tags : effect.tags.map Title.tagName = tags

/-- The second workspace is the first after the operations of bindings were put in place and tags
with names were added, but for what is noted. -/
def Adds (config : Config) (registry : Registry) (bindings : List Binding) (tags : List Value)
    (work after : Workspace) : Prop :=
  ∃ effect : Effect, config.Places registry bindings tags effect ∧ effect.Acts work after

theorem rel_or {α β : Type} {relates : α → β → Prop} {first second : Option α}
    {other another : Option β} (related : Option.Rel relates first other)
    (more : Option.Rel relates second another) :
    Option.Rel relates (first.or second) (other.or another) := by
  cases related with
  | none => exact more
  | some same => exact .some same

theorem isSome_eq_of_rel {α β : Type} {relates : α → β → Prop} {first : Option α}
    {second : Option β} (related : Option.Rel relates first second) :
    first.isSome = second.isSome := by
  cases related <;> rfl

namespace Adds

theorem refl (work : Workspace) : config.Adds registry [] [] work work :=
  ⟨{}, ⟨fun _ _ => .none, rfl⟩, .refl work⟩

theorem trans (first : config.Adds registry given tags work between)
    (second : config.Adds registry others more between after) :
    config.Adds registry (given ++ others) (tags ++ more) work after := by
  obtain ⟨begun, places, acts⟩ := first
  obtain ⟨ended, places_later, acts_later⟩ := second
  refine ⟨begun.andThen ended, ⟨fun path verb => ?_, ?_⟩, acts.trans acts_later⟩
  · rw [lastAt_append, Effect.slots_andThen]
    exact rel_or (places_later.slots path verb) (places.slots path verb)
  · rw [Effect.tags_andThen, List.map_append, places.tags, places_later.tags]

/-- A loop adds what its rounds add. -/
theorem forM {α : Type} {items : List α} {body : α → Build Unit} {bindings : α → List Binding}
    {tags : α → List Value} (round : ∀ item ∈ items, ∀ {before between},
      (body item).Runs before () between →
        config.Adds registry (bindings item) (tags item) before between)
    (runs : (items.forM body).Runs work () after) :
    config.Adds registry (items.flatMap bindings) (items.flatMap tags) work after := by
  induction items generalizing work with
  | nil =>
      obtain ⟨-, rfl⟩ := runs_pure.mp runs
      exact .refl _
  | cons item rest ih =>
      rw [List.forall_mem_cons] at round
      obtain ⟨_, between, first, later⟩ := runs_bind.mp runs
      rw [List.flatMap_cons, List.flatMap_cons]
      exact (round.1 first).trans (ih round.2 later)

theorem ofRefers {names : List String} (refers : Refers names work after) :
    config.Adds registry [] [] work after :=
  ⟨{ names }, ⟨fun _ _ => .none, rfl⟩, Effect.acts_of_refers refers⟩

end Adds

theorem acts_finishDefaults : ({} : Effect).Acts work (config.finishDefaults work) := by
  unfold finishDefaults
  split
  · exact (Effect.acts_finish _ _).trans (Effect.acts_finish _ _)
  · exact .refl work

/-- A binding that is skipped leaves everything as it is, but for a notice. -/
theorem addBinding_of_not_operates (shared : Option Element)
    (idle : ¬registry.Operates binding.method binding.rule) (work : Workspace) :
    ∃ notices, (config.addBinding registry shared binding).Runs work false
      { work with notices } := by
  unfold addBinding
  cases supported : binding.rule.verb.isSupported with
  | false =>
      simp only [Bool.not_false, if_true, runs_bind, runs_report, runs_pure]
      exact ⟨_, (), _, rfl, trivial, rfl⟩
  | true =>
      have unknown : registry.message? binding.method.definition.input = none := by
        rw [← Option.not_isSome_iff_eq_none]
        exact fun found => idle ⟨supported, found⟩
      simp only [unknown, Bool.not_true, if_false, Bool.false_eq_true, runs_bind, runs_report,
        runs_pure]
      exact ⟨_, (), _, rfl, trivial, rfl⟩

/-- A binding of a service adds its operation, if it is one. -/
theorem addBinding_adds {way : List Nat} {service : Service} {shared : Option Element}
    {added : Bool} (member : binding ∈ bindings way service)
    (data : (sharedData way service).Gives shared)
    (runs : (config.addBinding registry shared binding).Runs work added after) :
    added = decide (registry.Operates binding.method binding.rule) ∧
      config.Adds registry [binding] [] work after := by
  rcases addBinding_cases runs with ⟨idle, rfl, refers⟩ |
    ⟨holds, rfl, input, operation, path, between, found, bound, put⟩
  · refine ⟨(decide_eq_false idle).symm, {}, ⟨fun path verb => ?_, rfl⟩,
      Effect.acts_of_refers refers⟩
    rw [lastAt_singleton, if_neg fun goes => idle goes.operates]
    exact .none
  · obtain rfl := path_of_boundOperation bound
    have assembles : config.Assembles registry binding operation := by
      obtain ⟨same_way, same_service⟩ := serviceWay_of_mem_bindings member
      exact ⟨shared, input, found, same_way ▸ same_service ▸ data,
        (config.boundOperation_fixed registry binding shared input).steady bound⟩
    obtain ⟨names, -, refers⟩ :=
      (boundOperation_runs ⟨_, Registry.mem_of_message? found, rfl⟩ bound).1
    refine ⟨(decide_eq_true holds).symm, _, ⟨fun key word => ?_, rfl⟩,
      (acts_finishDefaults.trans (Effect.acts_of_refers refers)).trans (placing_acts put)⟩
    rw [lastAt_singleton]
    simp only [goesTo_iff holds.1 found]
    change Option.Rel _ _ (Option.or (if key = _ ∧ word = _ then some operation else none) none)
    rw [Option.or_none]
    split
    · exact .some assembles
    · exact .none

/-- The bindings of a service add their operations, and which of them are operations is known. -/
theorem addBindings_adds {way : List Nat} {service : Service} {shared : Option Element}
    {added : List Bool} (members : ∀ binding ∈ given, binding ∈ bindings way service)
    (data : (sharedData way service).Gives shared)
    (runs : (given.mapM (config.addBinding registry shared)).Runs work added after) :
    added = given.map (fun binding => decide (registry.Operates binding.method binding.rule)) ∧
      config.Adds registry given [] work after := by
  induction given generalizing work added with
  | nil =>
      obtain ⟨rfl, rfl⟩ := runs_pure.mp runs
      exact ⟨rfl, .refl _⟩
  | cons binding rest ih =>
      rw [List.forall_mem_cons] at members
      rw [List.mapM_cons] at runs
      simp only [runs_bind, runs_pure] at runs
      obtain ⟨first, between, one, others, _, later, rfl, rfl⟩ := runs
      obtain ⟨rfl, begun⟩ := addBinding_adds members.1 data one
      obtain ⟨rfl, ended⟩ := ih members.2 later
      exact ⟨rfl, begun.trans ended⟩

/-- The bindings of a service are those of its methods. -/
theorem exists_bindings {way : List Nat} {service : Service} {holds : Method → Rule → Prop} :
    (∃ binding ∈ bindings way service, holds binding.method binding.rule) ↔
      ∃ method ∈ service.methods, ∃ rule ∈ method.definition.rules,
        holds method (.ofDefinition rule) := by
  constructor
  · rintro ⟨binding, among, held⟩
    obtain ⟨inside, rule, given, same⟩ := mem_bindings among
    exact ⟨binding.method, inside, rule, given, same ▸ held⟩
  · rintro ⟨method, inside, rule, given, held⟩
    obtain ⟨binding, among, rfl, same⟩ := exists_binding inside given
    exact ⟨binding, among, same.symm ▸ held⟩

/-- A service adds the operations of its bindings, and one tag if there are any. -/
theorem addService_adds {way : List Nat} {service : Service}
    (runs : (config.addService registry way service).Runs work () after) :
    config.Adds registry (bindings way service)
      (if service.Operates registry then [.string service.name] else []) work after := by
  unfold addService at runs
  simp only [runs_bind] at runs
  obtain ⟨shared, _, data, added, bound, rounds, rest⟩ := runs
  obtain ⟨rfl, places⟩ := addBindings_adds (fun _ => id)
    ((sharedData_fixed way service).steady data) rounds
  have begun := (Adds.ofRefers (sharedData_runs data).1).trans places
  have found : ((bindings way service).map fun binding =>
      decide (registry.Operates binding.method binding.rule)).contains true =
        decide (service.Operates registry) := by
    rw [Bool.eq_iff_iff, List.contains_iff_mem, decide_eq_true_eq]
    simp only [List.mem_map, decide_eq_true_eq]
    exact exists_bindings
  simp only [found, decide_eq_true_eq] at rest
  split at rest
  next operates =>
    simp only [runs_bind, runs_comment] at rest
    obtain ⟨description, _, ⟨-, rfl⟩, tagged⟩ := rest
    have named : Title.tagName (serviceTag service description) = .string service.name := by
      unfold Title.tagName serviceTag Element.setText Element.value?
      rw [Element.get?_set_of_ne _ _ (by decide), Element.get?_set_self]
      rfl
    have tag : config.Adds registry [] [.string service.name] _ after :=
      ⟨_, ⟨fun _ _ => .none, List.map_singleton.trans (congrArg List.singleton named)⟩,
        addTag_acts tagged⟩
    rw [if_pos operates]
    exact List.append_nil (bindings way service) ▸ begun.trans tag
  next idle =>
    obtain ⟨-, rfl⟩ := runs_pure.mp rest
    rwa [if_neg idle]

/-- Adding a file lays what it says over the document, and then each of its services has its
turn. -/
theorem addFile_eq_turns (file : SourceFile) : config.addFile registry file =
    (do overlayFile file; file.services.zipIdx.forM (config.addDescribed registry file)) :=
  addFile_eq file

/-- A service that is filtered leaves everything as it is, but for a notice. -/
theorem addDescribed_of_filtered (file : SourceFile) {item : Service × Nat}
    (filtered : config.admits item.1 = false) (work : Workspace) :
    ∃ notices, (config.addDescribed registry file item).Runs work () { work with notices } := by
  unfold addDescribed
  rw [if_neg (filtered ▸ Bool.false_ne_true)]
  exact ⟨_, runs_report.mpr rfl⟩

/-- A service of a file adds the operations of its bindings and its tag, if it is to be
described. -/
theorem addDescribed_adds {file : SourceFile} {item : Service × Nat}
    (runs : (config.addDescribed registry file item).Runs work () after) :
    config.Adds registry
      (if config.admits item.1 then bindings [file.position, item.2] item.1 else [])
      (config.tagNames registry [item.1]) work after := by
  unfold addDescribed at runs
  unfold tagNames
  rw [List.filter_singleton]
  split at runs
  next admitted =>
    rw [if_pos admitted, admitted, Bool.true_and]
    have adds := addService_adds runs
    split at adds
    next operates => rwa [decide_eq_true operates, cond_true]
    next idle => rwa [decide_eq_false idle, cond_false]
  next filtered =>
    have unlisted := Bool.eq_false_iff.mpr filtered
    rw [if_neg filtered, unlisted, Bool.false_and, cond_false]
    obtain rfl := runs_report.mp runs
    exact .ofRefers (.notices _ _)

theorem tagNames_flatMap {α : Type} (items : List α) (services : α → List Service) :
    config.tagNames registry (items.flatMap services) =
      items.flatMap fun item => config.tagNames registry (services item) := by
  unfold tagNames
  rw [List.filter_flatMap, List.map_flatMap]

/-- Files without annotations of the document add the operations of their bindings and the tags of
their services. -/
theorem addFiles_adds {files : List SourceFile}
    (plain : ∀ file ∈ files, Unannotated (file.payload? .document))
    (runs : (files.forM (config.addFile registry)).Runs work () after) :
    config.Adds registry (config.bindingsOf files)
      (config.tagNames registry (files.flatMap SourceFile.services)) work after := by
  rw [tagNames_flatMap]
  refine .forM (fun file member before between turn => ?_) runs
  rw [addFile_eq_turns, runs_bind] at turn
  obtain ⟨_, overlaid, overlay, services⟩ := turn
  obtain rfl := (overlayFile_runs overlay).2.2 (plain file member)
  have names : config.tagNames registry file.services =
      file.services.zipIdx.flatMap fun item => config.tagNames registry [item.1] := by
    rw [flatMap_zipIdx file.services fun service => config.tagNames registry [service],
      ← tagNames_flatMap, List.flatMap_singleton']
  rw [names]
  exact .forM (fun item _ _ _ turn => addDescribed_adds turn) services

/-! ## What a document holds -/

/-- The bindings of some files are those of the services that are to be described. -/
theorem exists_bindingsOf {files : List SourceFile} {holds : Method → Rule → Prop} :
    (∃ binding ∈ config.bindingsOf files, holds binding.method binding.rule) ↔
      ∃ file ∈ files, ∃ service ∈ file.services, config.admits service = true ∧
        ∃ method ∈ service.methods, ∃ rule ∈ method.definition.rules,
          holds method (.ofDefinition rule) := by
  unfold bindingsOf
  simp only [List.mem_flatMap]
  constructor
  · rintro ⟨binding, ⟨file, member, ⟨service, position⟩, inside, among⟩, held⟩
    dsimp only at among
    split at among
    next admitted =>
      exact ⟨file, member, service, List.fst_mem_of_mem_zipIdx inside, admitted,
        exists_bindings.mp ⟨binding, among, held⟩⟩
    next => cases among
  · rintro ⟨file, member, service, inside, admitted, bound⟩
    obtain ⟨position, inside⟩ := exists_mem_zipIdx inside
    obtain ⟨binding, among, held⟩ := exists_bindings.mpr bound
    exact ⟨binding, ⟨file, member, (service, position), inside, (if_pos admitted).symm ▸ among⟩,
      held⟩

/-- A document accounts for every binding of some files. -/
structure Accounts (config : Config) (registry : Registry) (files : List SourceFile)
    (document : Element) : Prop where
  /-- No path stands twice. -/
  distinct : (document.table "paths").keys.Nodup
  /-- Under a path and a verb there is an operation just if a binding of a service that is to be
  described goes there. -/
  operations : ∀ path, ∀ verb ∈ Kind.verbs, (document.slot? path verb).isSome ↔
    ∃ file ∈ files, ∃ service ∈ file.services, config.admits service = true ∧
      ∃ method ∈ service.methods, ∃ rule ∈ method.definition.rules,
        config.GoesTo registry path verb method (.ofDefinition rule)
  /-- It is that of the last such binding, up to its servers. -/
  last : ∀ path, ∀ verb ∈ Kind.verbs, ∀ binding,
    config.lastAt registry (config.bindingsOf files) path verb = some binding →
      ∃ operation stands, config.Assembles registry binding operation ∧
        document.slot? path verb = some stands ∧ Servers.clear stands = Servers.clear operation
  /-- Each service that is to be described and has an operation has one tag. -/
  tags : ((document.many "tags").map Title.tagName).Perm
    (config.tagNames registry (files.flatMap SourceFile.services))
  /-- A binding that is no operation changes neither the document nor what is noted or done. -/
  skipped : ∀ shared binding, ¬registry.Operates binding.method binding.rule → ∀ work,
    ∃ notices, (config.addBinding registry shared binding).Runs work false { work with notices }
  /-- Nor does a service that is not to be described. -/
  filtered : ∀ file item, config.admits item.1 = false → ∀ work,
    ∃ notices, (config.addDescribed registry file item).Runs work () { work with notices }

/-- The document of files without annotations of the document accounts for every binding. -/
theorem accounts_of_built {files : List SourceFile} {document : Element}
    (plain : ∀ file ∈ files, Unannotated (file.payload? .document))
    (built : (config.buildDocument registry files none).outcome = .ok document) :
    config.Accounts registry files document := by
  obtain ⟨operated, resolved, operations, resolves, settles⟩ := buildDocument_iff.mp built
  obtain ⟨effect, places, acts⟩ := addFiles_adds plain operations
  obtain ⟨names, noted⟩ := resolveSchemas_acts resolves
  have resolved_acts := acts.trans noted
  have unserved := resolved_acts.unserved unserved_initialDocument
  have kept (path : Scalar) (verb : String) (member : verb ∈ Kind.verbs) :
      (document.slot? path verb).map Servers.clear =
        (effect.slots path verb).map Servers.clear := by
    rw [settles.slot? unserved.distinct member, resolved_acts.slots]
    change (Option.or (Option.or none _) none).map _ = _
    rw [Option.none_or, Option.or_none]
    rfl
  refine ⟨settles.keys_perm.nodup_iff.mpr unserved.distinct, fun path verb member => ?operations,
    fun path verb member binding is_last => ?last, ?tags,
    fun shared binding idle => addBinding_of_not_operates shared idle,
    fun file item filtered => addDescribed_of_filtered file filtered⟩
  case operations =>
    have some_iff := congrArg Option.isSome (kept path verb member)
    rw [Option.isSome_map, Option.isSome_map, ← isSome_eq_of_rel (places.slots path verb)]
      at some_iff
    rw [some_iff, isSome_lastAt]
    exact exists_bindingsOf
  case last =>
    have assembled := places.slots path verb
    have same := kept path verb member
    rw [is_last] at assembled
    generalize effect.slots path verb = placed at assembled same
    cases assembled with
    | @some _ operation assembles =>
        obtain ⟨stands, found, same⟩ := Option.map_eq_some_iff.mp same
        exact ⟨operation, stands, assembles, found, same⟩
  case tags =>
    have tags : (resolved.document.many "tags").map Title.tagName =
        config.tagNames registry (files.flatMap SourceFile.services) := by
      rw [resolved_acts.tags, ← places.tags, Effect.tags_andThen]
      exact congrArg (List.map Title.tagName) (List.append_nil _)
    exact tags ▸ settles.tagNames_perm

end Config

/-- A library that lends books: a book is borrowed and returned under one path, one rule has a verb
of its own, and the input of one method is not known. -/
def loansFile : FileDefinition where
  name := "loans.proto"
  package := "library"
  messages := [{ name := "Book", fields := [{ name := "title", type := .string }] }]
  services := [
    { name := "Loans"
      methods := [
        { name := "Borrow"
          input := ".library.Book"
          output := ".library.Book"
          rules := [{ pattern := .verb "post" "/loans/{title}" }, { pattern := .custom }] },
        { name := "Return"
          input := ".library.Book"
          output := ".library.Book"
          rules := [{ pattern := .verb "post" "/loans/{title}" }] },
        { name := "Lose"
          input := ".library.Pamphlet"
          output := ".library.Book"
          rules := [{ pattern := .verb "delete" "/loans/{title}" }] }] },
    readingService "Stock" ".library.Book" "/stock/{title}"]

/-- The registry of a library that lends books. -/
def loansRegistry : Registry := .ofFiles ["loans.proto"] [loansFile]

/-- A configuration that describes loans only, without a title. -/
def loansConfig : Config := { libraryConfig with title := "", services := ["library.Loans"] }

/-- The document of loans accounts for every binding, and books are returned where they were
borrowed. -/
theorem loans_accounted :
    (loansConfig.buildDocument loansRegistry loansRegistry.generatedFiles none).outcome =
        .ok (loansConfig.documentOf loansRegistry loansRegistry.generatedFiles) ∧
      loansConfig.Accounts loansRegistry loansRegistry.generatedFiles
        (loansConfig.documentOf loansRegistry loansRegistry.generatedFiles) ∧
      (loansConfig.lastAt loansRegistry (loansConfig.bindingsOf loansRegistry.generatedFiles)
        (.string "/loans/{title}") "post").map (·.method.definition.name) =
          some "Return" := by
  have built := Config.outcome_of_isOk
    (by decide +kernel : (loansConfig.buildDocument loansRegistry loansRegistry.generatedFiles
      none).outcome.isOk = true)
  exact ⟨built, Config.accounts_of_built (by decide +kernel) built, by decide +kernel⟩

end ServiceDoc
