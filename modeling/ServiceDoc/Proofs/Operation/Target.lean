import ServiceDoc.Proofs.Document.Operations
import ServiceDoc.Proofs.Operation.Way

/-!
# The messages that operations refer to

The path, the query, the body and the answer of an operation hold messages. Those that are not
written in place are its targets, listed in the order in which the operation refers to them, and
adding the operations of a file notes the names of the targets of all of them and no other name,
whether or not any two of these messages share a name.
-/

namespace ServiceDoc

open Build Workspace

/-- The messages that the schema of a message refers to: itself, unless it is written in place. -/
def Message.targets (message : Message) : List Message :=
  if WellKnown.isInline message.fullName then [] else [message]

theorem Message.eq_of_mem_targets {message target : Message} (member : target ∈ message.targets) :
    target = message := by
  unfold targets at member
  split at member
  · exact (List.not_mem_nil member).elim
  · exact List.mem_singleton.mp member

namespace Registry

variable (registry : Registry)

/-- The message that the schema of a field refers to, if there is one. -/
def targets (field : MessageField) : List Message := (registry.target? field).toList

theorem mem_of_targets {registry : Registry} {field : MessageField} {target : Message}
    (member : target ∈ registry.targets field) : ∃ entry ∈ registry.messages, entry.2 = target :=
  mem_of_target? (Option.mem_toList.mp member)

/-- The messages that the placeholders of a path template hold. -/
def pathTargets (path : String) (input : Option Message) : List Message :=
  (Template.simpleNames path.length path.toList).flatMap fun name =>
    (input.bind (·.field? (String.ofList name))).toList.flatMap registry.targets

/-- The messages that the body of a request holds: the input, or what the selected field holds. -/
def bodyTargets (body : String) (input : Message) : List Message :=
  if body = "" then []
  else if body = "*" then input.targets
  else ((input.field? body).bind registry.messageOf?).toList.flatMap Message.targets

end Registry

namespace Config

variable (config : Config) (registry : Registry)

/-- The messages at the ends of the ways from a field that expand no field too often. -/
def wayTargets (fuel : Nat) (depths : Depths) (field : MessageField) : List Message :=
  (config.waysFrom registry fuel depths field).flatMap fun way => registry.targets (way.last field)

/-- The messages that the query parameters of a field hold. -/
def parameterTargets (field : MessageField) : List Message :=
  config.wayTargets registry ((config.depth + Depths.slack []) * fieldCount registry + 1) [] field

/-- The names of fields that the path and the body of a rule take. -/
def covered (rule : Rule) (input : Option Message) : List String :=
  let path := rule.path.toList
  let names := Template.simpleNames rule.path.length path
  let in_path := names.map String.ofList ++
    (config.expandPattern input (config.formatPlaceholders input path names)).covered
  if rule.body = "" then in_path else in_path ++ [rule.body]

/-- The messages that the query of a rule holds. -/
def queryTargets (rule : Rule) (input : Message) : List Message :=
  if rule.body = "*" ∨ input.fullName = WellKnown.httpBody then []
  else (queryFields (config.covered rule (some input)) input).flatMap
    (config.parameterTargets registry)

/-- The messages that the operation of a rule refers to. -/
def operationTargets (rule : Rule) (input : Message) (output : Option Message) : List Message :=
  registry.pathTargets rule.path (some input) ++ config.queryTargets registry rule input ++
    output.toList.flatMap Message.targets ++ registry.bodyTargets rule.body input

/-- The messages that the binding of a method refers to, if it is an operation. -/
def bindingTargets (method : Method) (rule : Rule) : List Message :=
  if rule.verb.isSupported then
    (registry.message? method.definition.input).toList.flatMap fun input =>
      config.operationTargets registry rule input (registry.message? method.definition.output)
  else []

/-- The messages that the operations of a service refer to. -/
def serviceTargets (service : Service) : List Message :=
  service.methods.flatMap fun method => method.definition.rules.flatMap fun rule =>
    config.bindingTargets registry method (.ofDefinition rule)

/-- The messages that the operations of a file refer to. -/
def fileTargets (file : SourceFile) : List Message :=
  file.services.flatMap fun service =>
    if config.admits service then config.serviceTargets registry service else []

variable {config registry}

/-! ## Targets are messages of the registry -/

/-- The targets of an operation are messages of the registry if its input and its output are. -/
theorem mem_of_operationTargets {rule : Rule} {input target : Message} {output : Option Message}
    (known_input : ∃ entry ∈ registry.messages, entry.2 = input)
    (known_output : ∀ message ∈ output, ∃ entry ∈ registry.messages, entry.2 = message)
    (member : target ∈ config.operationTargets registry rule input output) :
    ∃ entry ∈ registry.messages, entry.2 = target := by
  unfold operationTargets at member
  simp only [List.mem_append] at member
  rcases member with ((in_path | in_query) | answers) | in_body
  · obtain ⟨name, -, held⟩ := List.mem_flatMap.mp in_path
    obtain ⟨field, -, held⟩ := List.mem_flatMap.mp held
    exact Registry.mem_of_targets held
  · unfold queryTargets at in_query
    split at in_query
    · exact (List.not_mem_nil in_query).elim
    obtain ⟨field, -, held⟩ := List.mem_flatMap.mp in_query
    obtain ⟨way, -, held⟩ := List.mem_flatMap.mp held
    exact Registry.mem_of_targets held
  · obtain ⟨message, found, held⟩ := List.mem_flatMap.mp answers
    rw [Message.eq_of_mem_targets held]
    exact known_output message (Option.mem_toList.mp found)
  · unfold Registry.bodyTargets at in_body
    split at in_body
    · exact (List.not_mem_nil in_body).elim
    split at in_body
    · exact Message.eq_of_mem_targets in_body ▸ known_input
    obtain ⟨message, found, held⟩ := List.mem_flatMap.mp in_body
    obtain ⟨field, -, resolved⟩ := Option.bind_eq_some_iff.mp (Option.mem_toList.mp found)
    rw [Message.eq_of_mem_targets held]
    exact Registry.mem_of_messageOf? resolved

theorem mem_of_fileTargets {file : SourceFile} {target : Message}
    (member : target ∈ config.fileTargets registry file) :
    ∃ entry ∈ registry.messages, entry.2 = target := by
  obtain ⟨service, -, in_service⟩ := List.mem_flatMap.mp member
  split at in_service
  · obtain ⟨method, -, in_method⟩ := List.mem_flatMap.mp in_service
    obtain ⟨rule, -, in_binding⟩ := List.mem_flatMap.mp in_method
    unfold bindingTargets at in_binding
    split at in_binding
    · obtain ⟨input, found, in_operation⟩ := List.mem_flatMap.mp in_binding
      exact mem_of_operationTargets
        ⟨_, Registry.mem_of_message? (Option.mem_toList.mp found), rfl⟩
        (fun message found => ⟨_, Registry.mem_of_message? found, rfl⟩) in_operation
    · exact (List.not_mem_nil in_binding).elim
  · exact (List.not_mem_nil in_service).elim

/-! ## Steps and their targets -/

variable (config) in
/-- Wherever a step runs, it notes the names of some messages, in order, and no other name. -/
def RefersTo {α : Type} (step : Build α) (targets : List Message) : Prop :=
  ∀ ⦃work value after⦄, Runs step work value after →
    after.required = requireAll work.required (targets.map config.messageName)

variable {α β : Type} {step : Build α} {targets others : List Message}

namespace RefersTo

theorem ofRefers (refers : ∀ {work value after}, Runs step work value after →
    Refers (targets.map config.messageName) work after) : config.RefersTo step targets :=
  fun _ _ _ runs => (refers runs).required

/-- A step that fails says nothing. -/
theorem fail (failure : Failure) : config.RefersTo (fail failure : Build α) targets :=
  fun _ _ _ runs => (runs_fail.mp runs).elim

/-- A step that leaves the names as they are refers to nothing. -/
theorem silent (kept : ∀ {work value after}, Runs step work value after →
    after.required = work.required) : config.RefersTo step [] :=
  fun _ _ _ runs => kept runs

theorem pure (value : α) : config.RefersTo (pure value) [] :=
  silent fun runs => by rw [(runs_pure.mp runs).2]

theorem report (notice : Notice) : config.RefersTo (report notice) [] :=
  silent fun runs => by rw [runs_report.mp runs]

theorem comment (outcome : Except CommentError α) : config.RefersTo (comment outcome) [] :=
  silent fun runs => by rw [(runs_comment.mp runs).2]

theorem annotated (place : String) (loaded : Loading α) :
    config.RefersTo (annotated place loaded) [] :=
  silent fun runs => by rw [(runs_annotated.mp runs).2]

theorem modifyDocument (change : Element → Element) : config.RefersTo (modifyDocument change) [] :=
  silent fun runs => by rw [runs_modifyDocument.mp runs]

theorem addSchema (name : String) (schema : Element) :
    config.RefersTo (addSchema name schema) [] :=
  silent fun runs => by rw [finish_of_runs runs, required_finish]

/-- A step and then another for the value that it came to. -/
theorem bind {next : α → Build β} (first : config.RefersTo step targets)
    (second : ∀ value, (∃ work after, Runs step work value after) →
      config.RefersTo (next value) others) :
    config.RefersTo (step >>= next) (targets ++ others) := by
  intro work result after runs
  obtain ⟨value, between, begun, ended⟩ := runs_bind.mp runs
  rw [second value ⟨work, between, begun⟩ ended, first begun, List.map_append, requireAll_append]

theorem bind_silent {next : α → Build β} (first : config.RefersTo step targets)
    (second : ∀ value, config.RefersTo (next value) []) :
    config.RefersTo (step >>= next) targets := by
  simpa only [List.append_nil] using first.bind fun value _ => second value

theorem silent_bind {next : α → Build β} (first : config.RefersTo step [])
    (second : ∀ value, config.RefersTo (next value) targets) :
    config.RefersTo (step >>= next) targets :=
  first.bind fun value _ => second value

/-- The rounds of a loop refer to their targets one after the other. -/
theorem mapM {items : List α} {body : α → Build β} {reached : α → List Message}
    (round : ∀ item ∈ items, config.RefersTo (body item) (reached item)) :
    config.RefersTo (items.mapM body) (items.flatMap reached) := by
  induction items with
  | nil => exact .pure []
  | cons item rest ih =>
      rw [List.forall_mem_cons] at round
      rw [List.mapM_cons, List.flatMap_cons]
      exact round.1.bind fun _ _ => (ih round.2).bind_silent fun _ => .pure _

theorem forM {items : List α} {body : α → Build Unit} {reached : α → List Message}
    (round : ∀ item ∈ items, config.RefersTo (body item) (reached item)) :
    config.RefersTo (items.forM body) (items.flatMap reached) := by
  induction items with
  | nil => exact .pure ()
  | cons item rest ih =>
      rw [List.forall_mem_cons] at round
      rw [List.flatMap_cons]
      exact round.1.bind fun _ _ => ih round.2

end RefersTo

theorem schemaOfField_refersTo (field : MessageField) :
    config.RefersTo (config.schemaOfField registry field) (registry.targets field) :=
  .ofRefers fun runs => (schemaOfField_runs runs).refers

theorem map_targets (message : Message) :
    message.targets.map config.messageName = config.referenceNames message := by
  unfold Message.targets referenceNames
  split <;> rfl

theorem schemaOfMessage_refersTo (message : Message) :
    config.RefersTo (config.schemaOfMessage message) message.targets :=
  .ofRefers fun runs => map_targets message ▸ (schemaOfMessage_runs runs).refers

/-! ## Parameters -/

theorem leafParameter_refersTo (field : MessageField) :
    config.RefersTo (config.leafParameter registry field) (registry.targets field) :=
  (RefersTo.comment _).silent_bind fun _ =>
    (schemaOfField_refersTo field).bind_silent fun _ => .pure _

theorem wayTargets_leaf {fuel : Nat} {depths : Depths} {field : MessageField}
    (leaf : registry.IsLeaf field) :
    config.wayTargets registry (fuel + 1) depths field = registry.targets field := by
  rw [wayTargets, waysFrom_leaf leaf, List.flatMap_singleton]
  rfl

theorem wayTargets_expands {fuel : Nat} {depths : Depths} {field : MessageField}
    {message : Message} (expands : registry.ExpandsTo field message) :
    config.wayTargets registry (fuel + 1) depths field =
      message.fields.flatMap fun inner => if config.depth ≤ depths.count inner.fullName then []
        else config.wayTargets registry fuel (depths.enter inner.fullName) inner := by
  unfold wayTargets
  rw [waysFrom_expands expands, List.flatMap_assoc]
  refine Eq.trans (List.flatMap_congr fun step _ => ?_) (flatMap_zipIdx message.fields _)
  split
  · rfl
  · simp only [List.flatMap_map, Way.last_cons]

/-- The parameters that a field expands to refer to the messages at the ends of its ways. -/
theorem expandField_refersTo (fuel : Nat) (depths : Depths) (field : MessageField) :
    config.RefersTo (config.expandField registry fuel depths field)
      (config.wayTargets registry fuel depths field) := by
  have leaf (field : MessageField) : config.RefersTo
      (do return [← config.leafParameter registry field] : Build (List Parameter))
      (registry.targets field) :=
    (leafParameter_refersTo field).bind_silent fun _ => .pure _
  have skipped (notice : Notice) :
      config.RefersTo (do report notice; return [] : Build (List Parameter)) [] :=
    (RefersTo.report notice).silent_bind fun _ => .pure _
  induction fuel generalizing depths field with
  | zero => exact .pure _
  | succ fuel ih =>
      unfold expandField
      by_cases map : registry.isMap field = true
      · have idle : config.wayTargets registry (fuel + 1) depths field = [] := by
          rw [wayTargets, waysFrom, if_pos map]
          rfl
        rw [if_pos map, idle]
        exact .pure _
      rw [if_neg map]
      by_cases other : (!field.isMessage) = true
      · rw [if_pos other, wayTargets_leaf (.inl (by simpa using other))]
        exact leaf field
      rw [if_neg other]
      cases found : registry.messageOf? field with
      | none =>
          have idle : config.wayTargets registry (fuel + 1) depths field = [] := by
            rw [wayTargets, waysFrom, if_neg map, if_neg other, found]
            rfl
          rw [idle]
          exact skipped _
      | some message =>
          dsimp only
          by_cases several : field.isRepeated = true
          · have idle : config.wayTargets registry (fuel + 1) depths field = [] := by
              rw [wayTargets, waysFrom, if_neg map, if_neg other, found]
              exact congrArg (List.flatMap _) (if_pos several)
            rw [if_pos several, idle]
            exact skipped _
          rw [if_neg several]
          have single := eq_false_of_ne_true several
          by_cases closed : WellKnown.isQueryLeaf message.fullName = true
          · rw [if_pos closed, wayTargets_leaf (.inr ⟨single, message, found, closed⟩)]
            exact leaf field
          rw [if_neg closed, wayTargets_expands ⟨single, found, eq_false_of_ne_true closed⟩]
          refine (RefersTo.comment _).silent_bind fun description =>
            (RefersTo.mapM fun inner _ => ?_).bind_silent fun _ => .pure _
          split
          · exact .pure _
          · exact (ih _ _).bind_silent fun _ => .pure _

theorem queryParameters_refersTo (field : MessageField) :
    config.RefersTo (config.queryParameters registry [] field)
      (config.parameterTargets registry field) :=
  expandField_refersTo _ [] field

/-- The parameters of the query refer to the messages that the query holds. -/
theorem queryOf_refersTo (rule : Rule) (input : Message) :
    config.RefersTo
      (config.queryOf registry rule.body (config.covered rule (some input)) (some input))
      (config.queryTargets registry rule input) := by
  unfold queryOf queryTargets
  by_cases whole : rule.body = "*"
  · rw [if_pos whole, if_pos (.inl whole)]
    exact .pure _
  rw [if_neg whole]
  dsimp only
  by_cases raw : input.fullName = WellKnown.httpBody
  · rw [if_pos raw, if_pos (.inr raw)]
    exact .pure _
  rw [if_neg raw, if_neg fun either => either.elim whole raw]
  exact (RefersTo.mapM fun field _ => queryParameters_refersTo field).bind_silent fun _ => .pure _

theorem placeholderParameter_refersTo (input : Option Message) (name : List Char) :
    config.RefersTo (config.placeholderParameter registry input name)
      ((input.bind (·.field? (String.ofList name))).toList.flatMap registry.targets) := by
  unfold placeholderParameter
  cases found : input.bind (·.field? (String.ofList name)) with
  | none => exact .pure _
  | some field =>
      rw [Option.toList_some, List.flatMap_singleton]
      exact (schemaOfField_refersTo field).bind_silent fun _ =>
        (RefersTo.comment _).silent_bind fun _ => .pure _

theorem expandPath_refersTo (path : String) (input : Option Message) :
    config.RefersTo (config.expandPath registry path input) (registry.pathTargets path input) :=
  (RefersTo.mapM fun name _ => placeholderParameter_refersTo input name).bind_silent
    fun _ => .pure _

/-- What an expanded path covers follows from the rule and the input. -/
theorem covered_of_expandPath_runs {rule : Rule} {input : Option Message}
    {expanded : ExpandedPath} {work after : Workspace}
    (runs : (config.expandPath registry rule.path input).Runs work expanded after) :
    (if rule.body = "" then expanded.covered else expanded.covered ++ [rule.body]) =
      config.covered rule input := by
  unfold expandPath at runs
  simp only [runs_bind, runs_pure] at runs
  obtain ⟨parameters, _, -, rfl, -⟩ := runs
  rfl

/-! ## Bodies and responses -/

theorem bodySchema_refersTo {body : String} (selects : body ≠ "") (message : Message) :
    config.RefersTo (config.bodySchema registry body message)
      (registry.bodyTargets body message) := by
  have skipped (notice : Notice) :
      config.RefersTo (do report notice; return none : Build (Option Element)) [] :=
    (RefersTo.report notice).silent_bind fun _ => .pure _
  unfold bodySchema Registry.bodyTargets
  rw [if_neg selects]
  by_cases whole : body = "*"
  · rw [if_pos whole, if_pos whole]
    exact schemaOfMessage_refersTo message
  rw [if_neg whole, if_neg whole]
  cases found : message.field? body with
  | none => exact skipped _
  | some field =>
      dsimp only
      rw [Option.bind_some]
      by_cases text : field.type = .string
      · rw [if_pos text, Registry.messageOf?_eq_none (by rw [text]; decide)]
        exact .pure _
      rw [if_neg text]
      cases registry.messageOf? field with
      | none => exact skipped _
      | some inner =>
          rw [Option.toList_some, List.flatMap_singleton]
          exact schemaOfMessage_refersTo inner

theorem requestBody_refersTo (body : String) (input : Message) :
    config.RefersTo (config.requestBody registry body (some input))
      (registry.bodyTargets body input) := by
  unfold requestBody
  by_cases absent : body = ""
  · rw [if_pos absent, Registry.bodyTargets, if_pos absent]
    exact .pure _
  · rw [if_neg absent]
    exact (bodySchema_refersTo absent input).bind_silent fun _ => .pure _

theorem responseContent_refersTo (message : Message) :
    config.RefersTo (config.responseContent message) message.targets := by
  unfold responseContent
  by_cases empty : message.fullName = WellKnown.emptyMessage
  · rw [if_pos empty, Message.targets, if_pos (by rw [empty]; decide)]
    exact .pure _
  rw [if_neg empty]
  by_cases raw : message.fullName = WellKnown.httpBody
  · rw [if_pos raw, Message.targets, if_pos (by rw [raw]; decide)]
    exact .pure _
  rw [if_neg raw]
  exact (schemaOfMessage_refersTo message).bind_silent fun _ => .pure _

/-- The responses refer to the answer alone: the default error response notes no name. -/
theorem responses_refersTo (output : Option Message) :
    config.RefersTo (config.responses output) (output.toList.flatMap Message.targets) := by
  have answered (entries : Entries Element) : config.RefersTo (if config.defaultResponse then do
        let anyName := config.schemaName anyIdentity
        let _ ← addSchema anyName WellKnown.anySchema
        let statusName := config.schemaName statusIdentity
        let _ ← addSchema statusName (WellKnown.statusSchema anyName)
        let failure := response "Default error response"
          (WellKnown.jsonContent (some (Schema.reference statusName)))
        return Entries.put entries (.string "default") failure
      else return entries : Build (Entries Element)) [] := by
    split
    · exact (RefersTo.addSchema _ _).silent_bind fun _ =>
        (RefersTo.addSchema _ _).silent_bind fun _ => .pure _
    · exact .pure _
  unfold responses
  cases output with
  | none =>
      exact (RefersTo.report _).silent_bind fun _ => (RefersTo.pure _).silent_bind fun _ =>
        answered _
  | some message =>
      rw [Option.toList_some, List.flatMap_singleton]
      exact (responseContent_refersTo message).bind_silent fun _ =>
        (RefersTo.pure _).silent_bind fun _ => answered _

theorem servers_refersTo (host : String) : config.RefersTo (servers host) [] := by
  unfold servers
  split
  · exact .pure _
  split
  · exact .fail _
  · exact .pure _
  · exact .pure _

/-! ## Operations -/

/-- Assembling an operation refers to its targets. -/
theorem assemble_refersTo (heading : Heading) (rule : Rule) (input : Message)
    (output : Option Message) :
    config.RefersTo (config.assemble registry heading rule (some input) output)
      (config.operationTargets registry rule input output) := by
  unfold operationTargets
  rw [List.append_assoc, List.append_assoc]
  refine (expandPath_refersTo rule.path (some input)).bind fun expanded ran => ?_
  obtain ⟨work, after, ran⟩ := ran
  dsimp only
  rw [covered_of_expandPath_runs ran]
  exact (queryOf_refersTo rule input).bind fun _ _ => (responses_refersTo output).bind fun _ _ =>
    (servers_refersTo _).silent_bind fun _ =>
      (requestBody_refersTo rule.body input).bind_silent fun _ => .pure _

theorem boundOperation_refersTo (binding : Binding) (shared : Option Element) (input : Message) :
    config.RefersTo (config.boundOperation registry binding shared input)
      (config.operationTargets registry binding.rule input
        (registry.message? binding.method.definition.output)) := by
  unfold boundOperation
  refine (RefersTo.comment _).silent_bind fun description =>
    (assemble_refersTo _ _ input _).bind_silent fun made =>
      (RefersTo.comment _).silent_bind fun entries => ?_
  cases entries with
  | none =>
      exact (RefersTo.pure _).silent_bind fun annotated => .silent fun runs => by
        rw [(finishOperation_runs runs).1]
  | some entries =>
      exact (RefersTo.annotated _ _).silent_bind fun loaded => (RefersTo.pure _).silent_bind
        fun annotated => .silent fun runs => by rw [(finishOperation_runs runs).1]

theorem addOperation_refersTo (path : String) (verb : Verb) (operation : Element) :
    config.RefersTo (addOperation path verb operation) [] :=
  .silent fun runs => (addOperation_runs runs).1.required

theorem addBinding_refersTo (shared : Option Element) (binding : Binding) :
    config.RefersTo (config.addBinding registry shared binding)
      (config.bindingTargets registry binding.method binding.rule) := by
  unfold addBinding bindingTargets
  cases supported : binding.rule.verb.isSupported with
  | false => exact (RefersTo.report _).silent_bind fun _ => .pure _
  | true =>
      cases registry.message? binding.method.definition.input with
      | none => exact (RefersTo.report _).silent_bind fun _ => .pure _
      | some input =>
          rw [if_pos rfl, Option.toList_some, List.flatMap_singleton]
          exact (boundOperation_refersTo binding shared input).bind_silent fun made =>
            (addOperation_refersTo _ _ _).silent_bind fun _ => .pure _

/-! ## Services and files -/

theorem sharedData_refersTo (way : List Nat) (service : Service) :
    config.RefersTo (sharedData way service) [] :=
  .silent fun runs => (sharedData_runs runs).1.required

theorem bindings_flatMap (way : List Nat) (service : Service) :
    ((bindings way service).flatMap fun binding =>
      config.bindingTargets registry binding.method binding.rule) =
        config.serviceTargets registry service := by
  unfold bindings serviceTargets
  rw [List.flatMap_assoc]
  refine Eq.trans (List.flatMap_congr fun step _ => ?_) (flatMap_zipIdx service.methods _)
  rw [List.flatMap_map]
  exact flatMap_zipIdx step.1.definition.rules fun rule =>
    config.bindingTargets registry step.1 (.ofDefinition rule)

/-- Adding a service refers to the targets of its operations. -/
theorem addService_refersTo (way : List Nat) (service : Service) :
    config.RefersTo (config.addService registry way service)
      (config.serviceTargets registry service) := by
  unfold addService
  rw [← bindings_flatMap way service]
  refine (sharedData_refersTo way service).silent_bind fun shared =>
    (RefersTo.mapM fun binding _ => addBinding_refersTo shared binding).bind_silent
      fun added => ?_
  split
  · exact (RefersTo.comment _).silent_bind fun _ => .modifyDocument _
  · exact .pure _

theorem overlayFile_refersTo (file : SourceFile) : config.RefersTo (overlayFile file) [] :=
  .silent fun runs => (overlayFile_runs runs).1

theorem addServices_refersTo (file : SourceFile) :
    config.RefersTo (config.addServices registry file) (config.fileTargets registry file) := by
  unfold fileTargets
  rw [← flatMap_zipIdx]
  refine .forM fun item _ => ?_
  split
  · exact addService_refersTo _ item.1
  · exact .report _

/-- Adding files refers to the targets of all their operations. -/
theorem addFiles_refersTo (files : List SourceFile) :
    config.RefersTo (files.forM (config.addFile registry))
      (files.flatMap (config.fileTargets registry)) :=
  .forM fun file _ => by
    rw [addFile_eq]
    exact (overlayFile_refersTo file).silent_bind fun _ => addServices_refersTo file

end Config

end ServiceDoc
