import ServiceDoc.Proofs.Build.Refers
import ServiceDoc.Schema.Name
import ServiceDoc.Proofs.OpenApi.Reference

/-!
# Component schemas of a workspace

A schema is added to the components of the document under construction once for every name. The
names that are done are the keys of the component schemas, and what was added first stays.
-/

namespace ServiceDoc

/-- The component schemas of a document. -/
def Element.componentSchemas (document : Element) : Entries Element :=
  ((document.one? "components").getD (.empty .components)).table "schemas"

namespace Element

theorem one?_set_self (element : Element) (key : String) (inner : Element) :
    (element.set key (.one inner)).one? key = some inner := by
  unfold Element.one?
  rw [get?_set_self]

theorem one?_set_of_ne (element : Element) {key other : String} (content : Content)
    (differ : other ≠ key) : (element.set key content).one? other = element.one? other := by
  unfold Element.one?
  rw [get?_set_of_ne element content differ]

theorem table_set_self (element : Element) (key : String) (entries : Entries Element) :
    (element.set key (.table entries)).table key = entries := by
  unfold Element.table
  rw [get?_set_self]

/-- Other fields of a document leave its component schemas as they are. -/
theorem componentSchemas_set_of_ne (document : Element) {key : String} (content : Content)
    (differ : "components" ≠ key) :
    (document.set key content).componentSchemas = document.componentSchemas := by
  unfold componentSchemas
  rw [one?_set_of_ne document content differ]

theorem componentSchemas_putSchema (document : Element) (name : String) (schema : Element) :
    (Workspace.putSchema document name schema).componentSchemas =
      document.componentSchemas.put (.string name) schema := by
  unfold Workspace.putSchema componentSchemas
  simp only [one?_set_self, Option.getD_some, table_set_self]

variable {names : String → Prop}

theorem ResolvesIn.components {document : Element} (resolves : document.ResolvesIn names) :
    ((document.one? "components").getD (.empty .components)).ResolvesIn names := by
  cases found : document.one? "components" with
  | none => exact resolvesIn_empty (by decide)
  | some components => exact resolves.one? found

theorem ResolvesIn.putSchema {document schema : Element} (resolves : document.ResolvesIn names)
    (inner : schema.ResolvesIn names) (name : String) :
    (Workspace.putSchema document name schema).ResolvesIn names :=
  resolves.set (by decide) <| Content.resolvesIn_one.mpr <|
    resolves.components.set (by decide) <| Content.resolvesIn_table.mpr <|
      Entries.forall_put (resolves.components.table "schemas") inner

end Element

namespace Workspace

/-- The component schemas so far. -/
def schemas (work : Workspace) : Entries Element := work.document.componentSchemas

/-- A workspace with a component schema added, unless one of its name is done. -/
def finish (name : String) (schema : Element) (work : Workspace) : Workspace :=
  if name ∈ work.finished then work
  else { work with
    finished := name :: work.finished
    document := putSchema work.document name schema }

variable {name : String} {schema : Element} {work after : Workspace}

theorem finish_of_mem (done : name ∈ work.finished) : work.finish name schema = work := by
  rw [finish, if_pos done]

theorem finish_of_notMem (fresh : name ∉ work.finished) :
    work.finish name schema = { work with
      finished := name :: work.finished
      document := putSchema work.document name schema } := by
  rw [finish, if_neg fresh]

/-- Adding a schema does what finishing it says. -/
theorem finish_of_runs {added : Bool} (runs : (Build.addSchema name schema).Runs work added after) :
    after = work.finish name schema := by
  rw [Build.runs_addSchema] at runs
  by_cases done : name ∈ work.finished
  · rw [if_pos done] at runs
    rw [finish_of_mem done, runs.2]
  · rw [if_neg done] at runs
    rw [finish_of_notMem done, runs.2]

theorem finish_of_runs_discard {done : Unit}
    (runs : (discard (Build.addSchema name schema) : Build Unit).Runs work done after) :
    after = work.finish name schema := by
  obtain ⟨_, runs⟩ := Build.runs_discard.mp runs
  exact finish_of_runs runs

@[simp] theorem required_finish : (work.finish name schema).required = work.required := by
  unfold finish
  split <;> rfl

theorem mem_finished_finish {other : String} :
    other ∈ (work.finish name schema).finished ↔ other = name ∨ other ∈ work.finished := by
  by_cases done : name ∈ work.finished
  · rw [finish_of_mem done]
    exact ⟨.inr, fun member => member.elim (fun same => same ▸ done) id⟩
  · rw [finish_of_notMem done, List.mem_cons]

/-- A schema that is not done is put among the component schemas. -/
theorem schemas_finish (fresh : name ∉ work.finished) :
    (work.finish name schema).schemas = work.schemas.put (.string name) schema := by
  rw [finish_of_notMem fresh]
  exact Element.componentSchemas_putSchema _ _ _

/-- Finishing the same schema after references to others refers to the same others. -/
theorem Mentions.finish {allowed : String → Prop} (mentions : Mentions allowed work after)
    (name : String) (schema : Element) :
    Mentions allowed (work.finish name schema) (after.finish name schema) := by
  obtain ⟨names, fits, refers⟩ := mentions
  refine ⟨names, fits, ?_⟩
  by_cases done : name ∈ work.finished
  · rw [finish_of_mem done, finish_of_mem (refers.finished ▸ done)]
    exact refers
  · rw [finish_of_notMem done, finish_of_notMem (refers.finished ▸ done)]
    refine ⟨?_, ?_, refers.required⟩
    · change putSchema _ _ _ = putSchema _ _ _
      rw [refers.document]
    · change name :: _ = name :: _
      rw [refers.finished]

theorem Mentions.schemas {allowed : String → Prop} (mentions : Mentions allowed work after) :
    after.schemas = work.schemas := by
  unfold Workspace.schemas
  rw [mentions.document]

/-- A name is referred to or done. -/
def Covers (work : Workspace) (name : String) : Prop :=
  name ∈ work.required ∨ name ∈ work.finished

theorem Mentions.covers {allowed : String → Prop} (mentions : Mentions allowed work after)
    (other : String) (covered : work.Covers other) : after.Covers other :=
  covered.imp (mentions.required_subset other) fun done => mentions.finished ▸ done

theorem covers_finish (other : String) (covered : work.Covers other) :
    (work.finish name schema).Covers other :=
  covered.imp (fun member => by rwa [required_finish]) fun done =>
    mem_finished_finish.mpr (.inr done)

theorem covers_finish_self : (work.finish name schema).Covers name :=
  .inr (mem_finished_finish.mpr (.inl rfl))

end Workspace

namespace Config

/-- The component schemas that the default error response brings: those of any message and of an
error. -/
def finishDefaults (config : Config) (work : Workspace) : Workspace :=
  if config.defaultResponse then
    (work.finish (config.schemaName anyIdentity) WellKnown.anySchema).finish
      (config.schemaName statusIdentity)
      (WellKnown.statusSchema (config.schemaName anyIdentity))
  else work

variable {config : Config} {work after : Workspace}

theorem finishDefaults_mentions {allowed : String → Prop}
    (mentions : Workspace.Mentions allowed work after) :
    Workspace.Mentions allowed (config.finishDefaults work) (config.finishDefaults after) := by
  unfold finishDefaults
  split
  · exact (mentions.finish _ _).finish _ _
  · exact mentions

theorem covers_finishDefaults (name : String) (covered : work.Covers name) :
    (config.finishDefaults work).Covers name := by
  unfold finishDefaults
  split
  · exact Workspace.covers_finish _ (Workspace.covers_finish _ covered)
  · exact covered

end Config

end ServiceDoc
