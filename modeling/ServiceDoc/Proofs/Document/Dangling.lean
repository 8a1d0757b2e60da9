import ServiceDoc.Proofs.Document.Resolve
import ServiceDoc.Proofs.Document.Tidy

/-!
# References of a finished document

While a document without annotations is built, every reference in it is noted or done, and what is
done is stored. Since everything that is noted is done in the end, no reference of the finished
document dangles.
-/

namespace ServiceDoc

open Build Workspace

namespace Config

variable {config : Config} {registry : Registry} {work after : Workspace} {message : Message}
  {schema : Element}

/-- A document starts with information about itself and empty components. -/
theorem initialDocument_eq (config : Config) : initialDocument config none =
    .mk .document [("info", .one ((((Element.empty .info).setText "title" config.title).setText
      "version" config.version).setText "description" config.description)),
      ("openapi", .value (.string openapiVersion)), ("components", .one (.empty .components))] [] :=
  rfl

theorem sound_initialDocument :
    Sound { document := initialDocument config none } := by
  refine ⟨?_, fun _ member => (List.not_mem_nil member).elim⟩
  rw [initialDocument_eq, Element.resolvesIn_iff]
  refine ⟨fun same => by simp [Element.kind] at same, ?_⟩
  simp only [Element.fields, List.forall_mem_cons]
  refine ⟨?_, Content.resolvesIn_value, ?_, fun _ member => (List.not_mem_nil member).elim⟩
  · exact Content.resolvesIn_one.mpr ((((Element.resolvesIn_empty (by decide)).setText (by decide)
      _).setText (by decide) _).setText (by decide) _)
  · exact Content.resolvesIn_one.mpr (Element.resolvesIn_empty (by decide))

theorem known_initialDocument (document : Element) : Known config registry { document } :=
  ⟨fun _ member => (List.not_mem_nil member).elim, List.nodup_nil⟩

theorem sound_prepare (sound : Sound work) : Sound (config.prepare message work) := by
  unfold prepare
  split
  · exact sound.finish WellKnown.resolvesIn_anySchema _
  · exact sound

/-- A special schema refers to what was prepared for it. -/
theorem resolvesIn_specialSchema? (known : config.specialSchema? message = some schema) :
    schema.ResolvesIn (config.prepare message work).Covers := by
  unfold specialSchema? at known
  split at known
  · exact Option.some.inj known ▸ WellKnown.resolvesIn_valueSchema
  split at known
  · exact Option.some.inj known ▸ WellKnown.resolvesIn_anySchema
  split at known
  next status =>
    refine Option.some.inj known ▸ WellKnown.resolvesIn_statusSchema ?_
    rw [prepare, if_pos status]
    exact covers_finish_self
  next => contradiction

/-- The schema of a message without annotations can be added. -/
theorem Makes.sound (makes : config.Makes registry message work schema after)
    (plain : message.Plain) (sound : Sound work) :
    Sound after ∧ schema.ResolvesIn after.Covers := by
  cases makes with
  | special known => exact ⟨sound_prepare sound, resolvesIn_specialSchema? known⟩
  | ordinary _ runs =>
      obtain ⟨refers, resolves⟩ := messageSchema_runs runs
      refine ⟨sound.later (messageSchema_mentions runs),
        (resolves plain).mono fun name inside => ?_⟩
      rw [Covers, refers.required, mem_requireAll]
      exact .inl (.inr inside)

theorem sound_addMessageSchema (plain : message.Plain) (sound : Sound work)
    (runs : (config.addMessageSchema registry message).Runs work () after) : Sound after := by
  rcases addMessageSchema_cases runs with ⟨-, rfl⟩ | ⟨-, schema, between, makes, rfl⟩
  · exact sound
  · obtain ⟨sound, resolves⟩ := makes.sound plain sound
    exact sound.finish resolves _

/-- Every reference of a document that was built without annotations names one of its component
schemas. -/
theorem references_in_components {config : Config} {generated : List String}
    {definitions : List FileDefinition} {files : List SourceFile} {document : Element}
    (messages : ∀ message ∈ (Registry.ofFiles generated definitions).fileMessages, message.Plain)
    (plain : ∀ file ∈ files, file.Plain)
    (built : (config.buildDocument (.ofFiles generated definitions) files none).outcome =
      .ok document) :
    ∀ reference ∈ document.references, ∃ name, Schema.referenceName? reference = some name ∧
      .string name ∈ document.componentSchemas.keys := by
  obtain ⟨operated, resolved, operations, resolves, tidies⟩ := buildDocument_runs built
  have alone : True → ∀ file ∈ files, file.Plain := fun _ => plain
  obtain ⟨keeps, -⟩ :=
    addFiles_runs (fun file member => (plain file member).document) alone operations
  have known := keeps.known (known_initialDocument _)
  have sound : Sound resolved := resolveLoop_preserves
    (fun message member _ _ => sound_addMessageSchema (messages message member))
    (keeps.sound trivial sound_initialDocument) resolves
  have done := resolveSchemas_runs (Registry.indexed_ofFiles generated definitions) known resolves
  intro reference member
  obtain ⟨name, named, covered⟩ := tidies.resolves _ sound.resolves reference member
  have finished : name ∈ resolved.finished := covered.elim (done name) id
  exact ⟨name, named, (tidies.schemas.map Prod.fst).mem_iff.mpr (sound.stored name finished)⟩

end Config

/-- The document of the library, whose messages refer to each other, refers to its component
schemas. -/
theorem library_references_in_components : ∃ document,
    (libraryConfig.buildDocument libraryRegistry libraryRegistry.files none).outcome =
      .ok document ∧
    ∀ reference ∈ document.references, ∃ name, Schema.referenceName? reference = some name ∧
      .string name ∈ document.componentSchemas.keys := by
  have plain : ∀ file ∈ libraryRegistry.files, file.Plain := by decide +kernel
  have messages : ∀ message ∈ libraryRegistry.fileMessages, message.Plain := by decide +kernel
  have ends : (libraryConfig.buildDocument libraryRegistry libraryRegistry.files
      none).outcome.isOk = true := by decide +kernel
  cases built : (libraryConfig.buildDocument libraryRegistry libraryRegistry.files
      none).outcome with
  | error failure =>
      rw [built] at ends
      exact absurd ends Bool.false_ne_true
  | ok document => exact ⟨document, rfl, Config.references_in_components messages plain built⟩

end ServiceDoc
