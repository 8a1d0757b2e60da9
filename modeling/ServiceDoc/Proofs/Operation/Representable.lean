import ServiceDoc.Proofs.Operation.Cover
import ServiceDoc.Proofs.Operation.Query
import ServiceDoc.Proofs.Operation.Target

/-!
# Which parameters have a schema

A field has a schema if its type has one and the message or the enumeration that it names is known.
A parameter of the path has one in any case. A field that is one query parameter is listed whether
it has a schema or not, so all parameters of an operation have schemas exactly if all fields that
ways into the query lead to can be represented.
-/

namespace ServiceDoc

open Build

theorem WellKnown.isSome_inlineSchema? {name : String} (inside : isInline name = true)
    (message : Option Message) :
    (inlineSchema? name message).isSome = decide (name ≠ emptyMessage) := by
  have among : name ∈ inlineTypes := List.contains_iff_mem.mp inside
  simp only [inlineTypes, wrappers, List.map_cons, List.map_nil, List.cons_append,
    List.nil_append, List.mem_cons, List.not_mem_nil, or_false] at among
  rcases among with rfl | rfl | rfl | rfl | rfl | rfl | rfl | rfl | rfl | rfl | rfl | rfl | rfl |
    rfl | rfl | rfl | rfl <;> rfl

namespace Registry

variable (registry : Registry)

/-- Whether one value of a field can be represented: a message that is known and has content, an
enumeration that is known, or any other value that is no group. -/
def representsValue (field : MessageField) : Bool :=
  match field.type.schemaClass with
  | .message =>
    (registry.messageOf? field).any fun message => message.fullName ≠ WellKnown.emptyMessage
  | .enum => (registry.enumOf? field).isSome
  | .unsupported => false
  | _ => true

/-- Whether a field can be represented: the values of a map, or else one value of the field. -/
def represents (field : MessageField) : Bool :=
  match registry.mapEntry? field with
  | some entry => entry.fields[1]?.any registry.representsValue
  | none => registry.representsValue field

end Registry

namespace Config

variable {config : Config} {registry : Registry} {field : MessageField} {message input : Message}
  {schema : Option Element} {depths : Depths} {way : Way} {work after : Workspace}

/-! ## Schemas -/

theorem isSome_schemaOfMessage (runs : (config.schemaOfMessage message).Runs work schema after) :
    schema.isSome = decide (message.fullName ≠ WellKnown.emptyMessage) := by
  unfold schemaOfMessage at runs
  split at runs
  next inside =>
    obtain ⟨rfl, -⟩ := runs_pure.mp runs
    exact WellKnown.isSome_inlineSchema? inside _
  next outside =>
    simp only [runs_bind, runs_pure] at runs
    obtain ⟨element, _, -, rfl, -⟩ := runs
    refine (decide_eq_true ?_).symm
    intro empty
    apply outside
    rw [empty]
    decide

theorem isSome_schemaOfValue (runs : (config.schemaOfValue registry field).Runs work schema after) :
    schema.isSome = registry.representsValue field := by
  have skipped {notice : Notice} (runs : Runs (do report notice; return none) work schema after) :
      schema.isSome = false := by
    simp only [runs_bind, runs_report, runs_pure] at runs
    obtain ⟨_, _, -, rfl, -⟩ := runs
    rfl
  have made {element : Element} (runs : Runs (pure (some element)) work schema after) :
      schema.isSome = true := by
    obtain ⟨rfl, -⟩ := runs_pure.mp runs
    rfl
  unfold schemaOfValue at runs
  unfold Registry.representsValue
  cases held : field.type.schemaClass with
  | message =>
      simp only [held] at runs
      cases found : registry.messageOf? field with
      | none =>
          rw [found] at runs
          exact skipped runs
      | some message =>
          rw [found] at runs
          exact isSome_schemaOfMessage runs
  | enum =>
      simp only [held] at runs
      cases found : registry.enumOf? field with
      | none =>
          rw [found] at runs
          exact skipped runs
      | some enum =>
          simp only [found, runs_bind, runs_pure] at runs
          obtain ⟨element, _, -, rfl, -⟩ := runs
          rfl
  | unsupported =>
      simp only [held] at runs
      exact skipped runs
  | _ =>
      simp only [held] at runs
      exact made runs

/-- A field gets a schema exactly if it can be represented. -/
theorem isSome_schemaOfField (runs : (config.schemaOfField registry field).Runs work schema after) :
    schema.isSome = registry.represents field := by
  unfold schemaOfField at runs
  unfold Registry.represents
  cases map : registry.mapEntry? field with
  | none =>
      simp only [map, runs_bind, runs_pure] at runs
      obtain ⟨value, _, made, rfl, -⟩ := runs
      rw [← isSome_schemaOfValue made]
      split
      · exact Option.isSome_map
      · rfl
  | some entry =>
      simp only [map] at runs
      cases inside : entry.fields[1]? with
      | none => simp [inside] at runs
      | some value =>
          simp only [inside, runs_bind, runs_pure] at runs
          obtain ⟨value, _, made, rfl, -⟩ := runs
          dsimp only
          rw [Option.isSome_map, isSome_schemaOfValue made, inside, Option.any_some]

/-! ## Parameters of the query -/

/-- A parameter of the query is named by a way, and has a schema exactly if the field that the way
leads to can be represented. -/
structure ShapesWay (config : Config) (registry : Registry) (start : MessageField) (way : Way)
    (parameter : Parameter) : Prop where
  name : parameter.name = ".".intercalate ((start :: way.fields).map config.fieldName)
  place : parameter.place = .query
  shaped : parameter.schema.isSome = registry.represents (way.last start)

theorem ShapesWay.within {inner : MessageField} {parameter : Parameter}
    (shapes : config.ShapesWay registry inner way parameter) (position : Nat)
    (description : String) :
    config.ShapesWay registry field ((inner, position) :: way)
      (within (config.fieldName field) description parameter) where
  name := by
    change config.fieldName field ++ "." ++ parameter.name = _
    rw [shapes.name]
    exact String.intercalate_cons_cons.symm
  place := shapes.place
  shaped := by
    rw [Way.last_cons]
    exact shapes.shaped

theorem leafParameter_shapes {parameters : List Parameter}
    (runs : Runs (do return [← config.leafParameter registry field]) work parameters after) :
    List.Forall₂ (config.ShapesWay registry field) [[]] parameters := by
  unfold leafParameter at runs
  simp only [runs_bind, runs_comment, runs_pure] at runs
  obtain ⟨_, _, ⟨description, _, -, schema, _, made, rfl, rfl⟩, rfl, -⟩ := runs
  exact .cons ⟨String.intercalate_singleton.symm, rfl, isSome_schemaOfField made⟩ .nil

/-- A field is listed in the query with a parameter for each way that leads from it, in the order of
the ways. -/
theorem expandField_shapes {fuel : Nat} {parameters : List Parameter}
    (runs : (config.expandField registry fuel depths field).Runs work parameters after) :
    List.Forall₂ (config.ShapesWay registry field) (config.waysFrom registry fuel depths field)
      parameters := by
  induction fuel generalizing depths field work after parameters with
  | zero =>
      obtain ⟨rfl, -⟩ := runs_pure.mp runs
      exact .nil
  | succ fuel ih =>
      have skipped {notice : Notice}
          (runs : Runs (do report notice; return []) work parameters after) :
          List.Forall₂ (config.ShapesWay registry field) [] parameters := by
        simp only [runs_bind, runs_report, runs_pure] at runs
        obtain ⟨_, _, -, rfl, -⟩ := runs
        exact .nil
      unfold expandField at runs
      rw [waysFrom]
      split at runs
      next map =>
        obtain ⟨rfl, -⟩ := runs_pure.mp runs
        rw [if_pos map]
        exact .nil
      next map =>
      rw [if_neg map]
      split at runs
      next other =>
        rw [if_pos other]
        exact leafParameter_shapes runs
      next other =>
      rw [if_neg other]
      cases found : registry.messageOf? field with
      | none =>
          rw [found] at runs
          exact skipped runs
      | some message =>
          rw [found] at runs
          dsimp only at runs ⊢
          split at runs
          next several =>
            rw [if_pos several]
            exact skipped runs
          next single =>
          rw [if_neg single]
          split at runs
          next closed =>
            rw [if_pos closed]
            exact leafParameter_shapes runs
          next opened =>
          rw [if_neg opened]
          simp only [runs_bind, runs_comment, runs_pure] at runs
          obtain ⟨description, _, -, expanded, _, rounds, rfl, -⟩ := runs
          obtain ⟨-, each⟩ := Runs.mapM_relates (fun _ _ => True)
            (fun _ inner parameters => ∀ position, List.Forall₂ (config.ShapesWay registry field)
              (if config.depth ≤ depths.count inner.fullName then []
                else (config.waysFrom registry fuel (depths.enter inner.fullName) inner).map
                  ((inner, position) :: ·)) parameters)
            (fun _ => trivial) (fun _ _ => trivial) (fun _ => id)
            (fun inner _ before parameters between round => by
              refine ⟨trivial, fun position => ?_⟩
              split at round
              next often =>
                obtain ⟨rfl, -⟩ := runs_pure.mp round
                rw [if_pos often]
                exact .nil
              next rare =>
                simp only [runs_bind, runs_pure] at round
                obtain ⟨inner_parameters, _, made, rfl, -⟩ := round
                rw [if_neg rare, List.forall₂_map_left_iff, List.forall₂_map_right_iff]
                exact (ih made).imp fun way parameter shapes => shapes.within position _) rounds
          exact forall₂_flatMap_zipIdx each 0

/-! ## Operations -/

variable (config registry) in
/-- The ways from a field that expand no field too often. -/
def ways (field : MessageField) : List Way :=
  config.waysFrom registry ((config.depth + Depths.slack []) * fieldCount registry + 1) [] field

theorem mem_ways : way ∈ config.ways registry field ↔
    registry.Leads field way ∧ ∀ name, way.fullNames.count name ≤ config.depth := by
  rw [ways, mem_waysFrom, ← fits_nil]
  constructor
  · rintro ⟨leads, fits, -⟩
    exact ⟨leads, fits⟩
  · rintro ⟨leads, fits⟩
    exact ⟨leads, fits, length_lt_of_fits leads fits⟩

variable (config registry) in
/-- The ways into the query of a rule, each with the field of the input that it starts from. -/
def queryWays (rule : Rule) (input : Message) : List (MessageField × Way) :=
  if rule.body = "*" ∨ input.fullName = WellKnown.httpBody then []
  else (queryFields (config.covered rule (some input)) input).flatMap fun field =>
    (config.ways registry field).map (field, ·)

/-- Ways into the query lead from fields of the input, and expand no field too often. -/
theorem leads_of_mem_queryWays {rule : Rule} {start : MessageField}
    (member : (start, way) ∈ config.queryWays registry rule input) :
    start ∈ input.fields ∧ registry.Leads start way ∧
      ∀ name, way.fullNames.count name ≤ config.depth := by
  unfold queryWays at member
  split at member
  · exact (List.not_mem_nil member).elim
  · obtain ⟨field, open_field, among⟩ := List.mem_flatMap.mp member
    obtain ⟨other, listed, same⟩ := List.mem_map.mp among
    obtain ⟨rfl, rfl⟩ := Prod.mk.inj same
    exact ⟨(List.mem_filter.mp open_field).1, mem_ways.mp listed⟩

/-- The query holds a parameter for each way into it. -/
theorem queryOf_shapes {rule : Rule} {query : List Parameter}
    (runs : (config.queryOf registry rule.body (config.covered rule (some input))
      (some input)).Runs work query after) :
    List.Forall₂ (fun way => config.ShapesWay registry way.1 way.2)
      (config.queryWays registry rule input) query := by
  unfold queryOf at runs
  unfold queryWays
  by_cases whole : rule.body = "*"
  · rw [if_pos whole] at runs
    rw [if_pos (.inl whole)]
    obtain ⟨rfl, -⟩ := runs_pure.mp runs
    exact .nil
  rw [if_neg whole] at runs
  dsimp only at runs
  by_cases raw : input.fullName = WellKnown.httpBody
  · rw [if_pos raw] at runs
    rw [if_pos (.inr raw)]
    obtain ⟨rfl, -⟩ := runs_pure.mp runs
    exact .nil
  rw [if_neg raw] at runs
  rw [if_neg fun either => either.elim whole raw]
  simp only [runs_bind, runs_pure] at runs
  obtain ⟨contributions, _, rounds, rfl, -⟩ := runs
  obtain ⟨-, each⟩ := Runs.mapM_relates (fun _ _ => True)
    (fun _ field parameters =>
      List.Forall₂ (config.ShapesWay registry field) (config.ways registry field) parameters)
    (fun _ => trivial) (fun _ _ => trivial) (fun _ => id)
    (fun _ _ _ _ _ round => ⟨trivial, expandField_shapes round⟩) rounds
  clear rounds
  generalize queryFields (config.covered rule (some input)) input = fields at each ⊢
  induction each with
  | nil => exact .nil
  | @cons field parameters _ _ first _ ih =>
      have start : List.Forall₂ (fun way => config.ShapesWay registry way.1 way.2)
          ((config.ways registry field).map (field, ·)) parameters :=
        List.forall₂_map_left_iff.mpr first
      rw [List.flatMap_cons, List.flatten_cons]
      exact List.rel_append start ih

/-- Every parameter of a path is one of a segment. -/
theorem segments_of_expandPath {path : String} {given : Option Message} {expanded : ExpandedPath}
    (runs : (config.expandPath registry path given).Runs work expanded after) :
    ∀ parameter ∈ expanded.parameters, ∃ name, IsSegment name parameter := by
  unfold expandPath at runs
  simp only [runs_bind, runs_pure] at runs
  obtain ⟨parameters, _, rounds, rfl, -⟩ := runs
  obtain ⟨-, each⟩ := Runs.mapM_relates (fun _ _ => True)
    (fun _ name parameter => IsSegment (config.segmentName given name) parameter)
    (fun _ => trivial) (fun _ _ => trivial) (fun _ => id)
    (fun _ _ _ _ _ round => ⟨trivial, (placeholderParameter_runs round).2.1⟩) rounds
  intro parameter member
  rcases List.mem_append.mp member with member | member
  · obtain ⟨name, -, segment⟩ := exists_of_forall₂ each member
    exact ⟨_, segment⟩
  · obtain ⟨name, rfl⟩ := eq_resourceParameter member
    exact ⟨name, rfl, rfl, rfl, rfl⟩

/-- What every item tells of its value holds of all values exactly if it is told by all items. -/
theorem forall_iff_of_forall₂ {α β : Type} {relates : α → β → Prop} {tells : α → Bool}
    {holds : β → Bool} {items : List α} {values : List β}
    (each : List.Forall₂ relates items values)
    (told : ∀ item value, relates item value → holds value = tells item) :
    (∀ value ∈ values, holds value = true) ↔ ∀ item ∈ items, tells item = true := by
  induction each with
  | nil => simp
  | cons first _ ih => rw [List.forall_mem_cons, List.forall_mem_cons, ih, told _ _ first]

/-- The parameters of an operation are parted by where they stand. -/
theorem parameters_apart {operation : Element} {in_path in_query : List Parameter}
    (path : ∀ parameter ∈ in_path, parameter.place = .path)
    (query : ∀ parameter ∈ in_query, parameter.place = .query)
    (holds : operation.many "parameters" = (in_path ++ in_query).map Parameter.toElement) :
    operation.pathParameters = in_path.map Parameter.toElement ∧
      operation.queryParameters = in_query.map Parameter.toElement := by
  have standing (parameter : Parameter) :
      parameter.toElement.text? "in" = some parameter.place.word := by simp
  constructor
  · unfold Element.pathParameters
    rw [holds, List.filter_map, List.filter_append, List.filter_eq_self.mpr,
      List.filter_eq_nil_iff.mpr, List.append_nil]
    · intro parameter member
      simp [query parameter member, ParameterPlace.word]
    · intro parameter member
      simp [path parameter member, ParameterPlace.word]
  · unfold Element.queryParameters
    rw [holds, List.filter_map, List.filter_append, List.filter_eq_nil_iff.mpr, List.nil_append,
      List.filter_eq_self.mpr]
    · intro parameter member
      simp [query parameter member, ParameterPlace.word]
    · intro parameter member
      simp [path parameter member, ParameterPlace.word]

/-- Every parameter of an operation stands in the path, where it has a schema, or in the query,
where there is one for each way into it, with a schema exactly if the field that the way leads to
can be represented. So all parameters have schemas exactly if all of these fields can be
represented. -/
theorem parameters_have_schemas {heading : Heading} {rule : Rule} {output : Option Message}
    {operation : Element} {path : String}
    (runs : (config.assemble registry heading rule (some input) output).Runs work
      (operation, path) after) :
    (∀ parameter ∈ operation.many "parameters",
      parameter ∈ operation.pathParameters ∨ parameter ∈ operation.queryParameters) ∧
    (∀ parameter ∈ operation.pathParameters, (parameter.one? "schema").isSome) ∧
    List.Forall₂ (fun way parameter =>
        parameter.text? "name" =
          some (".".intercalate ((way.1 :: way.2.fields).map config.fieldName)) ∧
        (parameter.one? "schema").isSome = registry.represents (way.2.last way.1))
      (config.queryWays registry rule input) operation.queryParameters ∧
    ((∀ parameter ∈ operation.many "parameters", (parameter.one? "schema").isSome) ↔
      ∀ way ∈ config.queryWays registry rule input, registry.represents (way.2.last way.1)) := by
  obtain ⟨expanded, between, query, later, in_path, in_query, parameters⟩ :=
    query_of_assemble runs
  rw [covered_of_expandPath_runs in_path] at in_query
  have segments := segments_of_expandPath in_path
  have shapes := queryOf_shapes in_query
  have places : ∀ parameter ∈ query, parameter.place = .query := fun parameter member =>
    ((queryOf_runs in_query).2 parameter member).place
  obtain ⟨of_path, of_query⟩ := parameters_apart
    (fun parameter member => (segments parameter member).elim fun _ segment => segment.place)
    places parameters
  have shaped : ∀ parameter ∈ operation.pathParameters, (parameter.one? "schema").isSome := by
    rw [of_path, List.forall_mem_map]
    intro parameter member
    obtain ⟨name, segment⟩ := segments parameter member
    rw [Parameter.one?_schema_toElement]
    exact segment.shaped
  have each : List.Forall₂ (fun way parameter =>
        parameter.text? "name" =
          some (".".intercalate ((way.1 :: way.2.fields).map config.fieldName)) ∧
        (parameter.one? "schema").isSome = registry.represents (way.2.last way.1))
      (config.queryWays registry rule input) operation.queryParameters := by
    rw [of_query, List.forall₂_map_right_iff]
    refine shapes.imp fun way parameter shape => ⟨?_, ?_⟩
    · rw [Parameter.text?_name_toElement, shape.name]
    · rw [Parameter.one?_schema_toElement, shape.shaped]
  have parted : operation.many "parameters" =
      operation.pathParameters ++ operation.queryParameters := by
    rw [parameters, of_path, of_query, List.map_append]
  refine ⟨fun parameter member => List.mem_append.mp (parted ▸ member), shaped, each, ?_⟩
  rw [parted, List.forall_mem_append, and_iff_right shaped]
  exact forall_iff_of_forall₂ each fun _ _ told => told.2

/-- All parameters of reading a book by its title have schemas. -/
theorem title_parameters_have_schemas : ∃ operation path after,
    readTitle.Runs ⟨.empty .document, [], [], []⟩ (operation, path) after ∧
    ∀ parameter ∈ operation.many "parameters", (parameter.one? "schema").isSome := by
  have known : (libraryRegistry.message? ".library.Book").isSome := by decide
  have represented : ∀ book ∈ libraryRegistry.message? ".library.Book",
      ∀ way ∈ libraryConfig.queryWays libraryRegistry
          ⟨String.ofList (Template.written titlePath), .get, ""⟩ book,
        libraryRegistry.represents (way.2.last way.1) := by
    decide +kernel
  have comes : (readTitle.run' ⟨.empty .document, [], [], []⟩).isSome = true := by decide +kernel
  obtain ⟨book, found⟩ := Option.isSome_iff_exists.mp known
  obtain ⟨⟨operation, path⟩, after, runs⟩ := exists_runs_of_isSome comes
  have made := runs
  unfold readTitle at made
  rw [found] at made
  obtain ⟨-, -, -, all⟩ := parameters_have_schemas made
  exact ⟨operation, path, after, runs, all.mpr (represented book found)⟩

/-- A message with a field of an unknown enumeration inside of a field, and with a group. -/
def searchFile : FileDefinition where
  name := "search.proto"
  messages := [
    { name := "Filter"
      fields := [{ name := "genre", type := .enum, typeName := ".Genre" }] },
    { name := "Search"
      fields := [
        { name := "page", type := .group, typeName := ".Search.Page" },
        { name := "filter", type := .message, typeName := ".Filter" },
        { name := "title", type := .string }] }]

/-- Fields that can not be represented are listed in the query without a schema. Taken from the
path, such a field has one. -/
theorem search_lacks_schemas :
    let shapes (path : String) := (libraryConfig.assemble (.ofFiles [] [searchFile])
      ⟨"", "", "", ""⟩ ⟨path, .get, ""⟩ ((Registry.ofFiles [] [searchFile]).message? ".Search")
        none |>.run' ⟨.empty .document, [], [], []⟩).map fun made =>
          (made.1.many "parameters").map fun parameter =>
            (parameter.text? "name", (parameter.one? "schema").isSome)
    shapes "/v1/search" =
        some [(some "page", false), (some "filter.genre", false), (some "title", true)] ∧
      shapes "/v1/search/{page}" =
        some [(some "page", true), (some "filter.genre", false), (some "title", true)] := by
  decide +kernel

end Config

end ServiceDoc
