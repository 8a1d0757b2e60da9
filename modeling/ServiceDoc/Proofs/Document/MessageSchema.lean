import ServiceDoc.Document.Assemble
import ServiceDoc.Proofs.Document.Component
import ServiceDoc.Proofs.Schema.Reflect

/-!
# Schemas of ordinary messages

The component schema of a message refers to the targets of the fields of the message, in order, and
making it does nothing else. Which schema it is does not depend on the workspace.
-/

namespace ServiceDoc

open Build Workspace

/-- No annotation was read. -/
def Unannotated {ε : Type} (read : Except ε (Option (Entries Value))) : Prop :=
  ∀ entries, read ≠ .ok (some entries)

instance {ε : Type} (read : Except ε (Option (Entries Value))) : Decidable (Unannotated read) :=
  match read with
  | .ok (some entries) => .isFalse fun plain => plain entries rfl
  | .ok none => .isTrue fun _ same => nomatch same
  | .error _ => .isTrue fun _ same => nomatch same

/-- A message without annotations that its schema would take data from. -/
structure Message.Plain (message : Message) : Prop where
  /-- The comment of the message has none. -/
  schema : Unannotated (message.comment.payload? .schema)
  properties : ∀ field ∈ message.fields, Unannotated (field.comment.payload? .property)

instance (message : Message) : Decidable message.Plain :=
  decidable_of_iff (Unannotated (message.comment.payload? .schema) ∧
      ∀ field ∈ message.fields, Unannotated (field.comment.payload? .property))
    ⟨fun plain => ⟨plain.1, plain.2⟩, fun plain => ⟨plain.schema, plain.properties⟩⟩

variable {config : Config} {registry : Registry} {work after : Workspace} {names : String → Prop}

theorem annotateSchema_runs {place : String} {entries : Option (Entries Value)}
    {schema annotated : Element}
    (runs : (annotateSchema place entries schema).Runs work annotated after) :
    Refers [] work after ∧ (entries = none → annotated = schema) := by
  unfold annotateSchema at runs
  cases entries with
  | none =>
      obtain ⟨rfl, rfl⟩ := runs_pure.mp runs
      exact ⟨.refl _, fun _ => rfl⟩
  | some entries =>
      simp only [runs_bind, runs_annotated, runs_pure] at runs
      obtain ⟨loaded, _, ⟨-, rfl⟩, rfl, rfl⟩ := runs
      exact ⟨.notices _ _, fun none => (Option.some_ne_none _ none).elim⟩

theorem annotateSchema_steady (place : String) (entries : Option (Entries Value))
    (schema : Element) : Steady (annotateSchema place entries schema) := by
  unfold annotateSchema
  split
  · exact steady_pure _
  · exact (steady_annotated _ _).bind fun _ => steady_pure _

theorem resolvesIn_describeProperty {field : MessageField} {description : String}
    {schema : Element} (resolves : schema.ResolvesIn names) :
    (describeProperty field description schema).ResolvesIn names := by
  have described : (if Title.isSet schema "description" then schema
      else Schema.described schema description).ResolvesIn names := by
    split
    · exact resolves
    · exact Schema.resolvesIn_described resolves _
  unfold describeProperty
  dsimp only
  split
  · exact ((described.setFlag (by decide) _).setFlag (by decide) _).setFlag (by decide) _
  · exact (described.setFlag (by decide) _).setFlag (by decide) _

/-- Without an annotation, the schema of a property refers to what the schema of its field refers
to. -/
theorem propertySchema_runs {field : MessageField} {schema property : Element}
    (runs : (propertySchema field schema).Runs work property after) :
    Refers [] work after ∧ (Unannotated (field.comment.payload? .property) →
      ∀ names, schema.ResolvesIn names → property.ResolvesIn names) := by
  unfold propertySchema at runs
  simp only [runs_bind, runs_comment] at runs
  obtain ⟨entries, _, ⟨read, rfl⟩, description, _, ⟨-, rfl⟩, rest⟩ := runs
  have absent (plain : Unannotated (field.comment.payload? .property)) : entries = none := by
    cases entries with
    | none => rfl
    | some entries => exact (plain entries read).elim
  split at rest
  · split at rest
    · obtain ⟨refers, same⟩ := annotateSchema_runs rest
      refine ⟨refers, fun plain names resolves => same (absent plain) ▸
        resolvesIn_describeProperty ((Element.resolvesIn_empty (by decide)).set (by decide)
          (Content.resolvesIn_many.mpr fun _ member => List.mem_singleton.mp member ▸ resolves))⟩
    · obtain ⟨rfl, rfl⟩ := runs_pure.mp rest
      exact ⟨.refl _, fun _ _ resolves => resolves⟩
  · obtain ⟨refers, same⟩ := annotateSchema_runs rest
    exact ⟨refers, fun plain names resolves => same (absent plain) ▸
      resolvesIn_describeProperty resolves⟩

theorem propertySchema_steady (field : MessageField) (schema : Element) :
    Steady (propertySchema field schema) := by
  unfold propertySchema
  refine (steady_comment _).bind fun entries => (steady_comment _).bind fun description => ?_
  dsimp only
  split
  · split
    · exact annotateSchema_steady _ _ _
    · exact steady_pure _
  · exact annotateSchema_steady _ _ _

namespace Config

/-- The names that the schema of an ordinary message refers to, in the order of its fields. -/
def edgeNames (config : Config) (registry : Registry) (message : Message) : List String :=
  message.fields.flatMap (config.targetNames registry)

/-- Adding a property refers to the target of its field. -/
theorem addProperty_runs {field : MessageField} {properties extended : Properties}
    (runs : (config.addProperty registry properties field).Runs work extended after) :
    Refers (config.targetNames registry field) work after ∧
      (Unannotated (field.comment.payload? .property) → ∀ names : String → Prop,
        (∀ name ∈ config.targetNames registry field, names name) →
          (∀ entry ∈ properties.schemas, entry.2.ResolvesIn names) →
            ∀ entry ∈ extended.schemas, entry.2.ResolvesIn names) := by
  unfold addProperty at runs
  rw [runs_bind] at runs
  obtain ⟨schema, between, made, rest⟩ := runs
  have reflects := schemaOfField_runs made
  cases schema with
  | none =>
      obtain ⟨rfl, rfl⟩ := runs_pure.mp rest
      exact ⟨reflects.refers, fun _ _ _ given => given⟩
  | some schema =>
      simp only [runs_bind, runs_pure] at rest
      obtain ⟨property, _, described, rfl, rfl⟩ := rest
      obtain ⟨refers, keeps⟩ := propertySchema_runs described
      have resolves := reflects.resolves schema rfl
      refine ⟨List.append_nil (config.targetNames registry field) ▸ reflects.refers.trans refers,
        fun plain _ inside given =>
          Entries.forall_put given (keeps plain _ (resolves.mono inside))⟩

theorem addProperty_steady (properties : Properties) (field : MessageField) :
    Steady (config.addProperty registry properties field) := by
  unfold addProperty
  refine (schemaOfField_steady _).bind fun schema => ?_
  split
  · exact steady_pure _
  · exact (propertySchema_steady _ _).bind fun _ => steady_pure _

/-- Adding the properties of fields refers to the targets of these fields. -/
theorem addProperties_runs {fields : List MessageField} {properties extended : Properties}
    (runs : (fields.foldlM (config.addProperty registry) properties).Runs work extended after) :
    Refers (fields.flatMap (config.targetNames registry)) work after ∧
      ((∀ field ∈ fields, Unannotated (field.comment.payload? .property)) →
        ∀ names : String → Prop,
          (∀ name ∈ fields.flatMap (config.targetNames registry), names name) →
          (∀ entry ∈ properties.schemas, entry.2.ResolvesIn names) →
            ∀ entry ∈ extended.schemas, entry.2.ResolvesIn names) := by
  induction fields generalizing properties work with
  | nil =>
      obtain ⟨rfl, rfl⟩ := runs_pure.mp runs
      exact ⟨.refl _, fun _ _ _ given => given⟩
  | cons field rest ih =>
      rw [List.foldlM_cons, runs_bind] at runs
      obtain ⟨first, between, added, others⟩ := runs
      obtain ⟨begun, first_resolves⟩ := addProperty_runs added
      obtain ⟨ended, resolves⟩ := ih others
      rw [List.flatMap_cons]
      refine ⟨begun.trans ended, fun plain names inside given => ?_⟩
      rw [List.forall_mem_append] at inside
      rw [List.forall_mem_cons] at plain
      exact resolves plain.2 names inside.2 (first_resolves plain.1 names inside.1 given)

/-- The schema of an ordinary message refers to the targets of its fields. -/
theorem messageSchema_runs {message : Message} {schema : Element}
    (runs : (config.messageSchema registry message).Runs work schema after) :
    Refers (config.edgeNames registry message) work after ∧
      (message.Plain → schema.ResolvesIn (· ∈ config.edgeNames registry message)) := by
  unfold messageSchema at runs
  simp only [runs_bind, runs_comment] at runs
  obtain ⟨properties, between, made, description, _, ⟨-, rfl⟩, entries, _, ⟨read, rfl⟩,
    rest⟩ := runs
  obtain ⟨refers, resolves⟩ := addProperties_runs made
  obtain ⟨annotated, same⟩ := annotateSchema_runs rest
  refine ⟨List.append_nil (config.edgeNames registry message) ▸ refers.trans annotated,
    fun plain => ?_⟩
  have absent : entries = none := by
    cases entries with
    | none => rfl
    | some entries => exact (plain.schema entries read).elim
  rw [same absent]
  refine ((Schema.resolvesIn_described (Schema.resolvesIn_ofType _) _).set (by decide)
    (Content.resolvesIn_table.mpr ?_)).set (by decide) Content.resolvesIn_list
  exact resolves plain.properties _ (fun _ member => member)
    fun _ member => (List.not_mem_nil member).elim

/-- Which schema an ordinary message has does not depend on the workspace. -/
theorem messageSchema_steady (message : Message) :
    Steady (config.messageSchema registry message) := by
  unfold messageSchema
  exact (Steady.foldlM addProperty_steady _).bind fun _ => (steady_comment _).bind fun _ =>
    (steady_comment _).bind fun _ => annotateSchema_steady _ _ _

end Config

end ServiceDoc
