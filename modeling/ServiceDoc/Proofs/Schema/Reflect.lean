import ServiceDoc.Proofs.Build.Gives
import ServiceDoc.Proofs.Build.Refers
import ServiceDoc.Proofs.OpenApi.Schema
import ServiceDoc.Proofs.Registry.Index
import ServiceDoc.Schema.Reflect

/-!
# What schemas of fields refer to

The schema of a field refers to at most one component schema: that of the message that the field
holds, or that the values of a map hold, unless the message is written in place. Making the schema
refers to this name and does nothing else, and which schema it is does not depend on the workspace.
-/

namespace ServiceDoc

namespace Registry

/-- The message that the schema of one value of a field refers to. -/
def valueTarget? (registry : Registry) (field : MessageField) : Option Message :=
  (registry.messageOf? field).filter fun message => !WellKnown.isInline message.fullName

/-- The message that the schema of a field refers to: that of the values of a map, and of a field
that is no map the message that it holds. -/
def target? (registry : Registry) (field : MessageField) : Option Message :=
  match registry.mapEntry? field with
  | some entry => entry.fields[1]?.bind registry.valueTarget?
  | none => registry.valueTarget? field

/-- Only fields of the type of a message hold one. -/
theorem messageOf?_eq_none {registry : Registry} {field : MessageField}
    (other : field.type ≠ .message) : registry.messageOf? field = none := by
  unfold messageOf? MessageField.isMessage
  rw [if_neg (by simpa using other)]

end Registry

open Build Workspace

variable {work after : Workspace}

/-- Making a schema referred to some names and did nothing else, and what it made refers to these
names alone. -/
structure Reflects (names : List String) (work : Workspace) (schema : Option Element)
    (after : Workspace) : Prop where
  refers : Refers names work after
  /-- The schema refers to no other names. -/
  resolves : ∀ element ∈ schema, element.ResolvesIn (· ∈ names)

namespace Reflects

variable {names : List String} {schema : Option Element} {element : Element}

/-- A schema that refers to nothing is made without a reference. -/
theorem made (resolves : element.ResolvesIn (· ∈ []))
    (runs : Runs (pure (some element)) work schema after) : Reflects [] work schema after := by
  obtain ⟨rfl, rfl⟩ := runs_pure.mp runs
  exact ⟨.refl _, fun _ member => Option.mem_some.mp member ▸ resolves⟩

/-- A schema that is left out with a notice refers to nothing. -/
theorem skipped {notice : Notice}
    (runs : Runs (do report notice; return none) work schema after) :
    Reflects [] work schema after := by
  simp only [runs_bind, runs_report, runs_pure] at runs
  obtain ⟨_, _, rfl, rfl, rfl⟩ := runs
  exact ⟨.notices _ _, fun _ member => (Option.not_mem_none _ member).elim⟩

/-- What is built around a schema refers to what the schema refers to. -/
theorem map (reflects : Reflects names work schema after) {change : Element → Element}
    (keeps : ∀ element : Element, element.ResolvesIn (· ∈ names) →
      (change element).ResolvesIn (· ∈ names)) :
    Reflects names work (schema.map change) after := by
  refine ⟨reflects.refers, fun element member => ?_⟩
  obtain ⟨inner, found, rfl⟩ := Option.map_eq_some_iff.mp member
  exact keeps inner (reflects.resolves inner found)

end Reflects

theorem enumSchema_runs {names : String → Prop} {style : EnumStyle} {enum : Enumeration}
    {schema : Element} (runs : (enumSchema style enum).Runs work schema after) :
    after = work ∧ schema.ResolvesIn names := by
  have listed (type : String) (symbols : List Value) :
      ((Schema.ofFormat type "enum").set "enum" (.list symbols)).ResolvesIn names :=
    (Schema.resolvesIn_ofFormat _ _).set (by decide) Content.resolvesIn_list
  unfold enumSchema at runs
  cases style <;>
  · simp only [runs_bind, runs_comment, runs_pure] at runs
    obtain ⟨lines, between, ⟨-, rfl⟩, rfl, rfl⟩ := runs
    refine ⟨rfl, ?_⟩
    split
    · exact Schema.resolvesIn_described
        ((listed _ _).set (by decide) Content.resolvesIn_value) _
    · exact Schema.resolvesIn_described (listed _ _) _

theorem enumSchema_steady (style : EnumStyle) (enum : Enumeration) :
    Steady (enumSchema style enum) := by
  unfold enumSchema
  cases style <;> exact (steady_comment _).bind fun _ => steady_pure _

namespace Config

variable {config : Config} {registry : Registry} {field : MessageField} {message : Message}
  {schema : Option Element}

/-- The name that the schema of a message refers to; a message that is written in place has none. -/
def referenceNames (config : Config) (message : Message) : List String :=
  if WellKnown.isInline message.fullName then [] else [config.messageName message]

/-- The names that the schema of one value of a field refers to. -/
def valueNames (config : Config) (registry : Registry) (field : MessageField) : List String :=
  (registry.valueTarget? field).toList.map config.messageName

/-- The names that the schema of a field refers to. -/
def targetNames (config : Config) (registry : Registry) (field : MessageField) : List String :=
  (registry.target? field).toList.map config.messageName

theorem valueNames_of_messageOf? (found : registry.messageOf? field = some message) :
    config.valueNames registry field = config.referenceNames message := by
  unfold valueNames Registry.valueTarget? referenceNames
  rw [found]
  cases inside : WellKnown.isInline message.fullName with
  | true => simp [Option.filter, inside]
  | false => simp [Option.filter, inside]

theorem valueNames_eq_nil (missing : registry.messageOf? field = none) :
    config.valueNames registry field = [] := by
  unfold valueNames Registry.valueTarget?
  rw [missing]
  rfl

theorem referTo_runs {element : Element}
    (runs : (config.referTo message).Runs work element after) :
    Refers [config.messageName message] work after ∧
      element.ResolvesIn (· ∈ [config.messageName message]) := by
  unfold referTo at runs
  simp only [runs_bind, runs_pure] at runs
  obtain ⟨_, between, required, rfl, rfl⟩ := runs
  exact ⟨.ofRequire required, Schema.resolvesIn_reference (List.mem_singleton_self _)⟩

theorem referTo_steady (message : Message) : Steady (config.referTo message) :=
  (steady_require _).bind fun _ => steady_pure _

/-- The schema of a message refers to the name of the message, unless it is written in place. -/
theorem schemaOfMessage_runs (runs : (config.schemaOfMessage message).Runs work schema after) :
    Reflects (config.referenceNames message) work schema after := by
  unfold schemaOfMessage at runs
  unfold referenceNames
  by_cases inside : WellKnown.isInline message.fullName
  · simp only [inside, if_true, runs_pure] at runs ⊢
    obtain ⟨rfl, rfl⟩ := runs
    exact ⟨.refl _, WellKnown.resolvesIn_inlineSchema? _ _⟩
  · simp only [inside, if_false, runs_bind, runs_pure, Bool.false_eq_true] at runs ⊢
    obtain ⟨element, between, referred, rfl, rfl⟩ := runs
    obtain ⟨refers, resolves⟩ := referTo_runs referred
    exact ⟨refers, fun element member => Option.mem_some.mp member ▸ resolves⟩

theorem schemaOfMessage_steady (message : Message) : Steady (config.schemaOfMessage message) := by
  unfold schemaOfMessage
  split
  · exact steady_pure _
  · exact (referTo_steady message).bind fun _ => steady_pure _

theorem schemaOfValue_runs (runs : (config.schemaOfValue registry field).Runs work schema after) :
    Reflects (config.valueNames registry field) work schema after := by
  unfold schemaOfValue at runs
  by_cases holds : field.type = .message
  · have class_eq : field.type.schemaClass = .message := by rw [holds]; rfl
    simp only [class_eq] at runs
    cases found : registry.messageOf? field with
    | none =>
        rw [found] at runs
        exact valueNames_eq_nil found ▸ .skipped runs
    | some message =>
        rw [found] at runs
        exact valueNames_of_messageOf? found ▸ schemaOfMessage_runs runs
  · rw [valueNames_eq_nil (Registry.messageOf?_eq_none holds)]
    split at runs
    next same => cases type : field.type <;> simp_all [FieldType.schemaClass]
    next => exact .made (Schema.resolvesIn_ofType _) runs
    next => exact .made (Schema.resolvesIn_ofFormat _ _) runs
    next =>
      split at runs
      · simp only [runs_bind, runs_pure] at runs
        obtain ⟨element, between, made, rfl, rfl⟩ := runs
        obtain ⟨rfl, resolves⟩ := enumSchema_runs made
        exact .made resolves (runs_pure.mpr ⟨rfl, rfl⟩)
      · exact .skipped runs
    next => exact .made (Schema.resolvesIn_ofType _) runs
    next => exact .made (Schema.resolvesIn_ofFormat _ _) runs
    next => exact .made (Schema.resolvesIn_ofFormat _ _) runs
    next => exact .skipped runs

theorem schemaOfValue_steady (field : MessageField) :
    Steady (config.schemaOfValue registry field) := by
  have skipped (notice : Notice) :
      Steady (do report notice; return none : Build (Option Element)) :=
    (steady_report notice).bind fun _ => steady_pure _
  unfold schemaOfValue
  split
  · split
    · exact schemaOfMessage_steady _
    · exact skipped _
  · exact steady_pure _
  · exact steady_pure _
  · split
    · exact (enumSchema_steady _ _).bind fun _ => steady_pure _
    · exact skipped _
  · exact steady_pure _
  · exact steady_pure _
  · exact steady_pure _
  · exact skipped _

/-- The schema of a field refers to the name of its target, and making it does nothing else. -/
theorem schemaOfField_runs (runs : (config.schemaOfField registry field).Runs work schema after) :
    Reflects (config.targetNames registry field) work schema after := by
  unfold schemaOfField at runs
  unfold targetNames Registry.target?
  cases map : registry.mapEntry? field with
  | none =>
      simp only [map, runs_bind, runs_pure] at runs
      obtain ⟨value, between, made, rfl, rfl⟩ := runs
      have reflects := schemaOfValue_runs made
      cases field.isRepeated with
      | true => exact reflects.map fun _ resolves => Schema.resolvesIn_sequence resolves
      | false => exact reflects
  | some entry =>
      simp only [map] at runs
      cases inside : entry.fields[1]? with
      | none => simp [inside] at runs
      | some value =>
          simp only [inside, runs_bind, runs_pure] at runs
          obtain ⟨made, between, run, rfl, rfl⟩ := runs
          simp only [inside, Option.bind_some]
          exact (schemaOfValue_runs run).map fun _ resolves => Schema.resolvesIn_mapping resolves

theorem schemaOfField_steady (field : MessageField) :
    Steady (config.schemaOfField registry field) := by
  unfold schemaOfField
  split
  · split
    · exact (schemaOfValue_steady _).bind fun _ => steady_pure _
    · exact steady_fail _
  · exact (schemaOfValue_steady _).bind fun _ => steady_pure _

end Config

/-- Settings for the library: names as they are defined, and a default error response. -/
def libraryConfig : Config where
  version := "1.0.0"
  title := "Library"
  description := ""
  naming := .proto
  qualifiedNames := false
  enumStyle := .string
  depth := 1
  defaultResponse := true
  outputMode := .merged
  format := .yaml
  pathPrefix := ""
  services := []
  base := none
  depth_pos := by decide

example : (libraryRegistry.message? ".library.Shelf").map (fun shelf =>
    shelf.fields.flatMap (libraryConfig.targetNames libraryRegistry)) = some ["Book"] := by decide

end ServiceDoc
