import ServiceDoc.Operation.Assemble
import ServiceDoc.Proofs.Document.Component
import ServiceDoc.Proofs.Registry.Index
import ServiceDoc.Proofs.Schema.Reflect

/-!
# What operations refer to

The parameters, the body and the responses of an operation refer to component schemas of messages of
the registry, and every such name is noted in the workspace. But for the schemas of the default
error response, no component schema is added while an operation is assembled.
-/

namespace ServiceDoc

open Build Workspace

/-- A name is the schema name of a message of the registry. -/
def Config.Knows (config : Config) (registry : Registry) (name : String) : Prop :=
  ∃ entry ∈ registry.messages, config.messageName entry.2 = name

/-- The schema of a parameter refers to names of a set. -/
def Parameter.ResolvesIn (names : String → Prop) (parameter : Parameter) : Prop :=
  ∀ schema ∈ parameter.schema, schema.ResolvesIn names

theorem Parameter.ResolvesIn.mono {names others : String → Prop}
    (wider : ∀ name, names name → others name) {parameter : Parameter}
    (resolves : parameter.ResolvesIn names) : parameter.ResolvesIn others :=
  fun schema member => (resolves schema member).mono wider

/-- The element of a parameter refers to what the schema of the parameter refers to. -/
theorem Parameter.resolvesIn_toElement {names : String → Prop} {parameter : Parameter}
    (resolves : parameter.ResolvesIn names) : parameter.toElement.ResolvesIn names := by
  have shaped : ((((((Element.empty .parameter).setText "name" parameter.name).setText "in"
      parameter.place.word).setText "description" parameter.description).setFlag "required"
      parameter.required).setOne? "schema" parameter.schema).ResolvesIn names :=
    (((((Element.resolvesIn_empty (by decide)).setText (by decide) _).setText (by decide)
      _).setText (by decide) _).setFlag (by decide) _).setOne? (by decide) resolves
  unfold toElement
  split
  · exact shaped.withExtensions _
  · exact shaped

variable {config : Config} {registry : Registry} {field : MessageField} {message : Message}
  {work after : Workspace} {schema : Option Element}

namespace Registry

theorem mem_of_messageOf? (found : registry.messageOf? field = some message) :
    ∃ entry ∈ registry.messages, entry.2 = message :=
  ⟨_, mem_of_message? (message?_of_messageOf? found), rfl⟩

theorem mem_of_valueTarget? (found : registry.valueTarget? field = some message) :
    ∃ entry ∈ registry.messages, entry.2 = message :=
  mem_of_messageOf? (Option.filter_eq_some_iff.mp found).1

/-- The target of a field is a message of the registry. -/
theorem mem_of_target? (found : registry.target? field = some message) :
    ∃ entry ∈ registry.messages, entry.2 = message := by
  unfold target? at found
  split at found
  · obtain ⟨value, -, found⟩ := Option.bind_eq_some_iff.mp found
    exact mem_of_valueTarget? found
  · exact mem_of_valueTarget? found

end Registry

namespace Config

theorem knows_of_referenceNames (known : ∃ entry ∈ registry.messages, entry.2 = message) :
    ∀ name ∈ config.referenceNames message, config.Knows registry name := by
  obtain ⟨entry, member, rfl⟩ := known
  intro name inside
  unfold referenceNames at inside
  split at inside
  · exact (List.not_mem_nil inside).elim
  · exact List.mem_singleton.mp inside ▸ ⟨entry, member, rfl⟩

/-- The schema of a field refers to messages of the registry. -/
theorem knows_of_targetNames :
    ∀ name ∈ config.targetNames registry field, config.Knows registry name := by
  intro name inside
  obtain ⟨target, found, rfl⟩ := List.mem_map.mp inside
  obtain ⟨entry, member, rfl⟩ := Registry.mem_of_target? (Option.mem_toList.mp found)
  exact ⟨entry, member, rfl⟩

/-- The names that are referred to are those of messages of the registry, each noted once. -/
structure Known (config : Config) (registry : Registry) (work : Workspace) : Prop where
  /-- Each is the name of a message. -/
  among : ∀ name ∈ work.required, config.Knows registry name
  distinct : work.required.Nodup

theorem Known.later (known : Known config registry work)
    (mentions : Mentions (config.Knows registry) work after) : Known config registry after :=
  ⟨mentions.required_allowed known.among, mentions.required_nodup known.distinct⟩

/-- A step noted all that the schema that it made refers to, and did nothing else. -/
def Notes (config : Config) (registry : Registry) (work : Workspace) (schema : Option Element)
    (after : Workspace) : Prop :=
  Mentions (config.Knows registry) work after ∧
    ∀ element ∈ schema, element.ResolvesIn after.Covers

theorem notes_of_reflects {names : List String}
    (known : ∀ name ∈ names, config.Knows registry name)
    (reflects : Reflects names work schema after) : config.Notes registry work schema after :=
  ⟨⟨names, known, reflects.refers⟩, fun element member =>
    (reflects.resolves element member).mono fun _ inside =>
      .inl (reflects.refers.required ▸ mem_requireAll.mpr (.inr inside))⟩

theorem notes_schemaOfField (runs : (config.schemaOfField registry field).Runs work schema after) :
    config.Notes registry work schema after :=
  notes_of_reflects knows_of_targetNames (schemaOfField_runs runs)

theorem notes_schemaOfMessage (known : ∃ entry ∈ registry.messages, entry.2 = message)
    (runs : (config.schemaOfMessage message).Runs work schema after) :
    config.Notes registry work schema after :=
  notes_of_reflects (knows_of_referenceNames known) (schemaOfMessage_runs runs)

/-! ## Parameters -/

/-- A parameter of the query whose schema is noted. -/
structure IsQuery (work : Workspace) (parameter : Parameter) : Prop where
  place : parameter.place = .query
  resolves : parameter.ResolvesIn work.Covers

theorem IsQuery.later {allowed : String → Prop} {parameter : Parameter}
    (mentions : Mentions allowed work after) (query : IsQuery work parameter) :
    IsQuery after parameter :=
  ⟨query.place, query.resolves.mono mentions.covers⟩

theorem leafParameter_runs {parameter : Parameter}
    (runs : (config.leafParameter registry field).Runs work parameter after) :
    Mentions (config.Knows registry) work after ∧ IsQuery after parameter := by
  unfold leafParameter at runs
  simp only [runs_bind, runs_comment, runs_pure] at runs
  obtain ⟨description, _, ⟨-, rfl⟩, schema, between, made, rfl, rfl⟩ := runs
  obtain ⟨mentions, resolves⟩ := notes_schemaOfField made
  exact ⟨mentions, rfl, resolves⟩

/-- Parameters were made for the query, and what their schemas refer to was noted. -/
def NotesQuery (config : Config) (registry : Registry) (work : Workspace)
    (parameters : List Parameter) (after : Workspace) : Prop :=
  Mentions (config.Knows registry) work after ∧ ∀ parameter ∈ parameters, IsQuery after parameter

namespace NotesQuery

variable {parameters : List Parameter}

theorem none (runs : Runs (pure []) work parameters after) :
    config.NotesQuery registry work parameters after := by
  obtain ⟨rfl, rfl⟩ := runs_pure.mp runs
  exact ⟨.refl _, fun _ member => (List.not_mem_nil member).elim⟩

theorem skipped {notice : Notice}
    (runs : Runs (do report notice; return []) work parameters after) :
    config.NotesQuery registry work parameters after := by
  simp only [runs_bind, runs_report, runs_pure] at runs
  obtain ⟨_, _, rfl, rfl, rfl⟩ := runs
  exact ⟨.notices _ _, fun _ member => (List.not_mem_nil member).elim⟩

theorem leaf (runs : Runs (do return [← config.leafParameter registry field]) work parameters
    after) : config.NotesQuery registry work parameters after := by
  simp only [runs_bind, runs_pure] at runs
  obtain ⟨parameter, _, made, rfl, rfl⟩ := runs
  obtain ⟨mentions, query⟩ := leafParameter_runs made
  exact ⟨mentions, fun other member => List.mem_singleton.mp member ▸ query⟩

/-- The parameters of several fields are noted if those of each are. -/
theorem flatten {fields : List MessageField} {body : MessageField → Build (List Parameter)}
    (round : ∀ field ∈ fields, ∀ {before parameters between},
      Runs (body field) before parameters between →
        config.NotesQuery registry before parameters between)
    {expanded : List (List Parameter)} (runs : Runs (fields.mapM body) work expanded after) :
    config.NotesQuery registry work expanded.flatten after := by
  obtain ⟨mentions, each⟩ := Runs.mapM_relates (Mentions (config.Knows registry))
    (fun work _ parameters => ∀ parameter ∈ parameters, IsQuery work parameter) Mentions.refl
    Mentions.trans (fun mentions each parameter member => (each parameter member).later mentions)
    round runs
  refine ⟨mentions, fun parameter member => ?_⟩
  obtain ⟨parameters, inside, member⟩ := List.mem_flatten.mp member
  obtain ⟨_, _, query⟩ := exists_of_forall₂ each inside
  exact query parameter member

end NotesQuery

/-- All parameters that a field expands to stand in the query, and their schemas are noted. -/
theorem expandField_runs {fuel : Nat} {depths : Depths} {parameters : List Parameter}
    (runs : (config.expandField registry fuel depths field).Runs work parameters after) :
    config.NotesQuery registry work parameters after := by
  induction fuel generalizing field work after depths parameters with
  | zero => exact .none runs
  | succ fuel ih =>
      unfold expandField at runs
      split at runs
      · exact .none runs
      split at runs
      · exact .leaf runs
      split at runs
      · exact .skipped runs
      split at runs
      · exact .skipped runs
      split at runs
      · exact .leaf runs
      simp only [runs_bind, runs_comment, runs_pure] at runs
      obtain ⟨description, _, ⟨-, rfl⟩, expanded, _, rounds, rfl, rfl⟩ := runs
      refine .flatten (fun inner _ before parameters between round => ?_) rounds
      split at round
      · exact .none round
      simp only [runs_bind, runs_pure] at round
      obtain ⟨inner_parameters, _, made, rfl, rfl⟩ := round
      obtain ⟨mentions, each⟩ := ih made
      refine ⟨mentions, fun parameter member => ?_⟩
      obtain ⟨inner_parameter, inside, rfl⟩ := List.mem_map.mp member
      exact ⟨(each inner_parameter inside).place, (each inner_parameter inside).resolves⟩

/-- The parameters that the query holds are noted. -/
theorem queryOf_runs {body : String} {covered : List String} {input : Option Message}
    {parameters : List Parameter}
    (runs : (config.queryOf registry body covered input).Runs work parameters after) :
    config.NotesQuery registry work parameters after := by
  unfold queryOf at runs
  split at runs
  · exact .none runs
  cases input with
  | none => exact (runs_fail.mp runs).elim
  | some message =>
      simp only at runs
      split at runs
      · exact .none runs
      simp only [runs_bind, runs_pure] at runs
      obtain ⟨expanded, _, rounds, rfl, rfl⟩ := runs
      exact .flatten (fun field _ before parameters between round => expandField_runs round) rounds

/-- A parameter of the path stands for a placeholder of a name: it is required, and it has a
schema. -/
structure IsSegment (name : List Char) (parameter : Parameter) : Prop where
  named : parameter.name = String.ofList name
  place : parameter.place = .path
  required : parameter.required = true
  shaped : parameter.schema.isSome

/-- The parameter of a placeholder has the formatted name, and its schema is noted. -/
theorem placeholderParameter_runs {input : Option Message} {name : List Char}
    {parameter : Parameter}
    (runs : (config.placeholderParameter registry input name).Runs work parameter after) :
    Mentions (config.Knows registry) work after ∧
      IsSegment (config.segmentName input name) parameter ∧ parameter.ResolvesIn after.Covers := by
  have text {names : String → Prop} : ∀ schema ∈ some Schema.string, schema.ResolvesIn names :=
    fun _ member => Option.mem_some.mp member ▸ Schema.resolvesIn_ofType "string"
  unfold placeholderParameter at runs
  split at runs
  · simp only [runs_bind, runs_comment, runs_pure] at runs
    obtain ⟨schema, _, made, description, _, ⟨-, rfl⟩, rfl, rfl⟩ := runs
    obtain ⟨mentions, resolves⟩ := notes_schemaOfField made
    refine ⟨mentions, ⟨rfl, rfl, rfl, rfl⟩, fun element member => ?_⟩
    cases schema with
    | none => exact text element member
    | some schema => exact resolves element member
  · obtain ⟨rfl, rfl⟩ := runs_pure.mp runs
    exact ⟨.refl _, ⟨rfl, rfl, rfl, rfl⟩, text⟩

theorem resolvesIn_resourceParameter {names : String → Prop} (name : List Char) :
    (Template.resourceParameter name).ResolvesIn names :=
  fun _ member => Option.mem_some.mp member ▸ Schema.resolvesIn_ofType "string"

/-- A placeholder with a pattern only brings the parameters of resources. -/
theorem eq_resourceParameter {input : Option Message} {path : List Char} {parameter : Parameter}
    (member : parameter ∈ (config.expandPattern input path).parameters) :
    ∃ name, parameter = Template.resourceParameter name := by
  unfold expandPattern at member
  split at member
  · exact (List.not_mem_nil member).elim
  · obtain ⟨name, -, rfl⟩ := List.mem_map.mp member
    exact ⟨name, rfl⟩

/-- The parameters of a path are noted. -/
theorem expandPath_runs {path : String} {input : Option Message} {expanded : ExpandedPath}
    (runs : (config.expandPath registry path input).Runs work expanded after) :
    Mentions (config.Knows registry) work after ∧
      ∀ parameter ∈ expanded.parameters, parameter.ResolvesIn after.Covers := by
  unfold expandPath at runs
  simp only [runs_bind, runs_pure] at runs
  obtain ⟨parameters, _, rounds, rfl, rfl⟩ := runs
  obtain ⟨mentions, each⟩ := Runs.mapM_relates (Mentions (config.Knows registry))
    (fun work _ parameter => parameter.ResolvesIn work.Covers) Mentions.refl Mentions.trans
    (fun mentions resolves => resolves.mono mentions.covers)
    (fun name _ before parameter between round =>
      ⟨(placeholderParameter_runs round).1, (placeholderParameter_runs round).2.2⟩) rounds
  refine ⟨mentions, fun parameter member => ?_⟩
  rcases List.mem_append.mp member with member | member
  · obtain ⟨_, _, resolves⟩ := exists_of_forall₂ each member
    exact resolves
  · obtain ⟨name, rfl⟩ := eq_resourceParameter member
    exact resolvesIn_resourceParameter name

/-! ## Bodies and responses -/

theorem bodySchema_runs {body : String} (known : ∃ entry ∈ registry.messages, entry.2 = message)
    (runs : (config.bodySchema registry body message).Runs work schema after) :
    config.Notes registry work schema after := by
  have skipped {notice : Notice} {after : Workspace} {schema : Option Element}
      (runs : Runs (do report notice; return none) work schema after) :
      config.Notes registry work schema after := by
    simp only [runs_bind, runs_report, runs_pure] at runs
    obtain ⟨_, _, rfl, rfl, rfl⟩ := runs
    exact ⟨.notices _ _, fun _ member => (Option.not_mem_none _ member).elim⟩
  unfold bodySchema at runs
  split at runs
  · exact notes_schemaOfMessage known runs
  split at runs
  · exact skipped runs
  next field found =>
    split at runs
    · obtain ⟨rfl, rfl⟩ := runs_pure.mp runs
      exact ⟨.refl _, fun _ member => Option.mem_some.mp member ▸ Schema.resolvesIn_ofType _⟩
    split at runs
    next inner resolved => exact notes_schemaOfMessage (Registry.mem_of_messageOf? resolved) runs
    next => exact skipped runs

theorem requestBody_runs {body : String} {input : Option Message}
    (known : ∀ message ∈ input, ∃ entry ∈ registry.messages, entry.2 = message)
    (runs : (config.requestBody registry body input).Runs work schema after) :
    config.Notes registry work schema after := by
  unfold requestBody at runs
  split at runs
  · obtain ⟨rfl, rfl⟩ := runs_pure.mp runs
    exact ⟨.refl _, fun _ member => (Option.not_mem_none _ member).elim⟩
  cases input with
  | none => exact (runs_fail.mp runs).elim
  | some message =>
      simp only [runs_bind, runs_pure] at runs
      obtain ⟨inner, _, made, rfl, rfl⟩ := runs
      obtain ⟨mentions, resolves⟩ := bodySchema_runs (known message rfl) made
      refine ⟨mentions, fun element member => Option.mem_some.mp member ▸ ?_⟩
      exact ((Element.resolvesIn_empty (by decide)).setFlag (by decide) _).set (by decide)
        (Content.resolvesIn_table.mpr (WellKnown.resolvesIn_jsonContent resolves))

theorem resolvesIn_response {names : String → Prop} {description : String}
    {content : Entries Element} (resolves : ∀ entry ∈ content, entry.2.ResolvesIn names) :
    (response description content).ResolvesIn names :=
  ((Element.resolvesIn_empty (by decide)).setText (by decide) _).set (by decide)
    (Content.resolvesIn_table.mpr resolves)

theorem responseContent_runs {content : String × Entries Element}
    (known : ∃ entry ∈ registry.messages, entry.2 = message)
    (runs : (config.responseContent message).Runs work content after) :
    Mentions (config.Knows registry) work after ∧
      ∀ entry ∈ content.2, entry.2.ResolvesIn after.Covers := by
  unfold responseContent at runs
  split at runs
  · obtain ⟨rfl, rfl⟩ := runs_pure.mp runs
    exact ⟨.refl _, fun _ member => (List.not_mem_nil member).elim⟩
  split at runs
  · obtain ⟨rfl, rfl⟩ := runs_pure.mp runs
    exact ⟨.refl _, WellKnown.resolvesIn_anyContent⟩
  simp only [runs_bind, runs_pure] at runs
  obtain ⟨inner, _, made, rfl, rfl⟩ := runs
  obtain ⟨mentions, resolves⟩ := notes_schemaOfMessage known made
  exact ⟨mentions, WellKnown.resolvesIn_jsonContent resolves⟩

/-- The default error response brings its component schemas with it. -/
theorem defaultResponse_runs {entries answers : Entries Element}
    (resolves : ∀ entry ∈ entries, entry.2.ResolvesIn work.Covers)
    (runs : Runs (if config.defaultResponse then do
        let anyName := config.schemaName anyIdentity
        let _ ← addSchema anyName WellKnown.anySchema
        let statusName := config.schemaName statusIdentity
        let _ ← addSchema statusName (WellKnown.statusSchema anyName)
        let failure := response "Default error response"
          (WellKnown.jsonContent (some (Schema.reference statusName)))
        return Entries.put entries (.string "default") failure
      else return entries) work answers after) :
    after = config.finishDefaults work ∧ ∀ entry ∈ answers, entry.2.ResolvesIn after.Covers := by
  by_cases default : config.defaultResponse
  · simp only [default, if_true, runs_bind, runs_pure] at runs
    obtain ⟨_, _, any, _, _, status, rfl, rfl⟩ := runs
    have ended := finish_of_runs status
    rw [finish_of_runs any] at ended
    have same : after = config.finishDefaults work := by
      rw [ended, finishDefaults, if_pos default]
    refine ⟨same, Entries.forall_put (fun entry member => ?_) ?_⟩
    · exact same ▸ (resolves entry member).mono covers_finishDefaults
    · refine resolvesIn_response (WellKnown.resolvesIn_jsonContent fun _ member =>
        Option.mem_some.mp member ▸ Schema.resolvesIn_reference ?_)
      exact ended ▸ covers_finish_self
  · simp only [default, if_false, runs_pure, Bool.false_eq_true] at runs
    obtain ⟨rfl, rfl⟩ := runs
    exact ⟨(if_neg default).symm, resolves⟩

/-- The responses refer to what is noted. Making them adds no component schema but those of the
default error response. -/
theorem responses_runs {output : Option Message} {entries : Entries Element}
    (known : ∀ message ∈ output, ∃ entry ∈ registry.messages, entry.2 = message)
    (runs : (config.responses output).Runs work entries after) :
    Mentions (config.Knows registry) (config.finishDefaults work) after ∧
      ∀ entry ∈ entries, entry.2.ResolvesIn after.Covers := by
  unfold responses at runs
  cases output with
  | none =>
      simp only at runs
      rw [runs_bind] at runs
      obtain ⟨_, between, reported, rest⟩ := runs
      obtain rfl := runs_report.mp reported
      obtain ⟨rfl, resolves⟩ := defaultResponse_runs (fun entry member =>
        List.mem_singleton.mp member ▸ resolvesIn_response fun _ member =>
          (List.not_mem_nil member).elim) rest
      exact ⟨finishDefaults_mentions (.notices _ _), resolves⟩
  | some message =>
      simp only at runs
      rw [runs_bind] at runs
      obtain ⟨content, between, made, rest⟩ := runs
      obtain ⟨mentions, content_resolves⟩ := responseContent_runs (known message rfl) made
      obtain ⟨rfl, resolves⟩ := defaultResponse_runs (fun entry member =>
        List.mem_singleton.mp member ▸ resolvesIn_response content_resolves) rest
      exact ⟨finishDefaults_mentions mentions, resolves⟩

theorem servers_runs {host : String} {found : List Element} {names : String → Prop}
    (runs : (servers host).Runs work found after) :
    after = work ∧ ∀ server ∈ found, server.ResolvesIn names := by
  unfold servers at runs
  split at runs
  · obtain ⟨rfl, rfl⟩ := runs_pure.mp runs
    exact ⟨rfl, fun _ member => (List.not_mem_nil member).elim⟩
  split at runs
  · exact (runs_fail.mp runs).elim
  · obtain ⟨rfl, rfl⟩ := runs_pure.mp runs
    exact ⟨rfl, fun _ member => (List.not_mem_nil member).elim⟩
  · obtain ⟨rfl, rfl⟩ := runs_pure.mp runs
    exact ⟨rfl, fun _ member => List.mem_singleton.mp member ▸
      (Element.resolvesIn_empty (by decide)).setText (by decide) _⟩

/-! ## Operations -/

/-- An operation refers to what is noted. Assembling it refers to messages of the registry and adds
no component schema but those of the default error response. -/
theorem assemble_runs {heading : Heading} {rule : Rule} {input output : Option Message}
    {operation : Element} {path : String}
    (known_input : ∀ message ∈ input, ∃ entry ∈ registry.messages, entry.2 = message)
    (known_output : ∀ message ∈ output, ∃ entry ∈ registry.messages, entry.2 = message)
    (runs : (config.assemble registry heading rule input output).Runs work (operation, path)
      after) :
    Mentions (config.Knows registry) (config.finishDefaults work) after ∧
      operation.ResolvesIn after.Covers := by
  unfold assemble at runs
  simp only [runs_bind, runs_pure, Prod.mk.injEq] at runs
  obtain ⟨expanded, _, in_path, query, _, in_query, answers, answered, responses, found, _, served,
    body, _, requested, ⟨rfl, rfl⟩, rfl⟩ := runs
  obtain ⟨path_mentions, path_resolves⟩ := expandPath_runs in_path
  obtain ⟨query_mentions, query_resolves⟩ := queryOf_runs in_query
  obtain ⟨answer_mentions, answer_resolves⟩ := responses_runs known_output responses
  obtain ⟨rfl, server_resolves⟩ := servers_runs served
  obtain ⟨body_mentions, body_resolves⟩ := requestBody_runs known_input requested
  have later (name : String) (covered : Covers _ name) : after.Covers name :=
    body_mentions.covers name (answer_mentions.covers name (covers_finishDefaults name covered))
  have parameters : ∀ parameter ∈ (expanded.parameters ++ query).map Parameter.toElement,
      parameter.ResolvesIn after.Covers := by
    intro element member
    obtain ⟨parameter, inside, rfl⟩ := List.mem_map.mp member
    refine Parameter.resolvesIn_toElement (Parameter.ResolvesIn.mono later ?_)
    rcases List.mem_append.mp inside with inside | inside
    · exact (path_resolves parameter inside).mono query_mentions.covers
    · exact (query_resolves parameter inside).resolves
  refine ⟨((finishDefaults_mentions (path_mentions.trans query_mentions)).trans
    answer_mentions).trans body_mentions, ?_⟩
  have described : (((Element.empty .operation).set "tags"
      (.list [.string heading.tag])).setText "description" heading.description).ResolvesIn
      after.Covers :=
    ((Element.resolvesIn_empty (by decide)).set (by decide) Content.resolvesIn_list).setText
      (by decide) _
  refine Element.ResolvesIn.setOne? ?_ (by decide) body_resolves
  refine ((((described.setText (by decide) _).set (by decide) ?_).set (by decide) ?_).set
    (by decide) ?_)
  · exact Content.resolvesIn_many.mpr parameters
  · exact Content.resolvesIn_table.mpr fun entry member =>
      (answer_resolves entry member).mono body_mentions.covers
  · exact Content.resolvesIn_many.mpr server_resolves

end Config

end ServiceDoc
