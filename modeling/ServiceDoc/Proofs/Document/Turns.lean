import ServiceDoc.Proofs.Document.Exact
import ServiceDoc.Proofs.Operation.Target

/-!
# The messages whose schemas are made

While references are resolved, every message takes its turn once in every pass, and in its turn its
schema is made if its name is noted and not done. Gathering these messages turn by turn tells for
which reference each schema was made: an operation, or the field of a message whose schema was made
before, refers to a message of the same name. Only where messages share a name is it another one.
-/

namespace ServiceDoc

open Build Workspace

instance (message : Message) : Decidable message.IsOrdinary :=
  inferInstanceAs (Decidable (_ ∧ _ ∧ _))

/-- The messages that the component schema of a message refers to. -/
def Registry.fieldTargets (registry : Registry) (message : Message) : List Message :=
  if message.IsOrdinary then message.fields.flatMap registry.targets else []

namespace Config

section

variable (config : Config) (registry : Registry)

/-- The messages that are referred to once the operations of some files were added and the schemas
of some messages were made. -/
def references (files : List SourceFile) (made : List Message) : List Message :=
  files.flatMap (config.fileTargets registry) ++ made.flatMap registry.fieldTargets

/-- Give a message its turn, and tell whether its schema was made. -/
def makeInTurn (message : Message) : Build (List Message) := do
  let pending := (← get).isPending (config.messageName message)
  config.addMessageSchema registry message
  return if pending then [message] else []

/-- Go once through the messages of all files, and tell whose schemas were made. -/
def makePass : Build (List Message) := do
  let made ← registry.files.mapM fun file => file.messages.mapM (config.makeInTurn registry)
  return made.flatten.flatten

/-- Go through all messages until no new name is referred to, and tell whose schemas were made. -/
def makeLoop : (fuel : Nat) → Build (List Message)
  | 0 => return []
  | fuel + 1 => do
    let before := (← get).required.length
    let made ← config.makePass registry
    if (← get).required.length ≠ before then return made ++ (← makeLoop fuel)
    return made

/-- Add the component schemas of all messages that are referred to, and tell whose schemas were
made. -/
def makeSchemas : Build (List Message) := config.makeLoop registry (registry.messages.length + 2)

/-- Messages whose schemas were made, one turn after the other. -/
inductive Turns : Workspace → List Message → Workspace → Prop where
  | nil (work : Workspace) : Turns work [] work
  | cons {work between after : Workspace} {message : Message} {made : List Message}
      (among : message ∈ registry.fileMessages)
      (pending : work.isPending (config.messageName message) = true)
      (runs : (config.addMessageSchema registry message).Runs work () between)
      (rest : Turns between made after) : Turns work (message :: made) after

end

variable {config : Config} {registry : Registry} {work between after : Workspace}
  {message : Message} {made : List Message}

/-! ## Telling whose schemas are made changes nothing -/

/-- A loop that tells something in every round runs as one that does not. -/
theorem runs_forM_iff_mapM {α β : Type} {items : List α} {body : α → Build Unit}
    {telling : α → Build β}
    (round : ∀ item ∈ items, ∀ {work after}, Runs (body item) work () after ↔
      ∃ value, Runs (telling item) work value after) :
    Runs (items.forM body) work () after ↔
      ∃ values, Runs (items.mapM telling) work values after := by
  induction items generalizing work with
  | nil => simp
  | cons item rest ih =>
      rw [List.forall_mem_cons] at round
      change Runs (body item >>= fun _ => rest.forM body) work () after ↔ _
      rw [List.mapM_cons]
      simp only [runs_bind, runs_pure, round.1, ih round.2]
      constructor
      · rintro ⟨_, between, ⟨value, first⟩, values, later⟩
        exact ⟨_, value, between, first, values, after, later, rfl, rfl⟩
      · rintro ⟨_, value, between, first, values, _, later, rfl, rfl⟩
        exact ⟨(), between, ⟨value, first⟩, values, later⟩

theorem runs_makeInTurn_iff : (config.makeInTurn registry message).Runs work made after ↔
    (config.addMessageSchema registry message).Runs work () after ∧
      made = if work.isPending (config.messageName message) then [message] else [] := by
  unfold makeInTurn
  simp only [runs_bind, runs_get, runs_pure]
  constructor
  · rintro ⟨_, _, ⟨rfl, rfl⟩, _, _, runs, rfl, rfl⟩
    exact ⟨runs, rfl⟩
  · rintro ⟨runs, rfl⟩
    exact ⟨_, _, ⟨rfl, rfl⟩, _, _, runs, rfl, rfl⟩

theorem runs_resolvePass_iff : (config.resolvePass registry).Runs work () after ↔
    ∃ made, (config.makePass registry).Runs work made after := by
  have turn (message : Message) {work after : Workspace} :
      (config.addMessageSchema registry message).Runs work () after ↔
        ∃ made, (config.makeInTurn registry message).Runs work made after := by
    simp only [runs_makeInTurn_iff, exists_and_left, exists_eq, and_true]
  have pass : (config.resolvePass registry).Runs work () after ↔ ∃ made, Runs
      (registry.files.mapM fun file => file.messages.mapM (config.makeInTurn registry)) work made
        after :=
    runs_forM_iff_mapM fun file _ => runs_forM_iff_mapM fun message _ => turn message
  rw [pass]
  unfold makePass
  simp only [runs_bind, runs_pure]
  constructor
  · rintro ⟨made, runs⟩
    exact ⟨_, made, after, runs, rfl, rfl⟩
  · rintro ⟨_, made, _, runs, rfl, rfl⟩
    exact ⟨made, runs⟩

theorem runs_resolveLoop_iff {fuel : Nat} :
    (config.resolveLoop registry fuel).Runs work () after ↔
      ∃ made, (config.makeLoop registry fuel).Runs work made after := by
  induction fuel generalizing work with
  | zero => simp [resolveLoop, makeLoop]
  | succ fuel ih =>
      unfold resolveLoop makeLoop
      simp only [runs_bind, runs_get]
      constructor
      · rintro ⟨_, start, ⟨rfl, rfl⟩, _, _, pass, _, ended, ⟨rfl, rfl⟩, rest⟩
        obtain ⟨made, pass⟩ := runs_resolvePass_iff.mp pass
        by_cases more : ended.required.length ≠ start.required.length
        · rw [if_pos more] at rest
          obtain ⟨others, rest⟩ := ih.mp rest
          refine ⟨made ++ others, _, start, ⟨rfl, rfl⟩, made, ended, pass, _, ended, ⟨rfl, rfl⟩, ?_⟩
          rw [if_pos more]
          simpa using rest
        · rw [if_neg more] at rest
          obtain ⟨-, rfl⟩ := runs_pure.mp rest
          refine ⟨made, _, start, ⟨rfl, rfl⟩, made, _, pass, _, _, ⟨rfl, rfl⟩, ?_⟩
          rw [if_neg more]
          exact runs_pure.mpr ⟨rfl, rfl⟩
      · rintro ⟨_, _, start, ⟨rfl, rfl⟩, made, _, pass, _, ended, ⟨rfl, rfl⟩, rest⟩
        refine ⟨_, start, ⟨rfl, rfl⟩, (), ended, runs_resolvePass_iff.mpr ⟨made, pass⟩, _, ended,
          ⟨rfl, rfl⟩, ?_⟩
        by_cases more : ended.required.length ≠ start.required.length
        · rw [if_pos more] at rest ⊢
          simp only [runs_bind, runs_pure] at rest
          obtain ⟨others, _, rest, -, rfl⟩ := rest
          exact ih.mpr ⟨others, rest⟩
        · rw [if_neg more] at rest ⊢
          exact runs_pure.mpr ⟨rfl, (runs_pure.mp rest).2⟩

/-! ## From turn to turn -/

variable {files : List SourceFile} {name : String}

theorem mem_names_fieldTargets : name ∈ (registry.fieldTargets message).map config.messageName ↔
    message.IsOrdinary ∧ name ∈ config.edgeNames registry message := by
  have names : config.edgeNames registry message =
      (message.fields.flatMap registry.targets).map config.messageName := by
    rw [List.map_flatMap]
    rfl
  unfold Registry.fieldTargets
  split
  next ordinary => rw [names, and_iff_right ordinary]
  next special => simp [special]

/-- In the turn of a message whose name is pending its schema is made and added. -/
theorem made_of_isPending (pending : work.isPending (config.messageName message) = true)
    (runs : (config.addMessageSchema registry message).Runs work () between) :
    ∃ schema prepared, config.Made registry message work schema prepared ∧
      between = prepared.finish (config.messageName message) schema := by
  rcases addMessageSchema_cases runs with ⟨idle, -⟩ | ⟨-, schema, prepared, makes, rfl⟩
  · exact absurd (idle.symm.trans pending) Bool.false_ne_true
  · exact ⟨schema, prepared, .ofMakes makes, rfl⟩

namespace Turns

theorem append {others : List Message} (first : config.Turns registry work made between)
    (second : config.Turns registry between others after) :
    config.Turns registry work (made ++ others) after := by
  induction first with
  | nil => exact second
  | cons among pending runs _ ih => exact .cons among pending runs (ih second)

/-- The turn of a message among those whose schemas were made. -/
theorem split {earlier later : List Message}
    (turns : config.Turns registry work (earlier ++ message :: later) after) :
    ∃ between, config.Turns registry work earlier between ∧ message ∈ registry.fileMessages ∧
      between.isPending (config.messageName message) = true := by
  induction earlier generalizing work with
  | nil =>
      cases turns with
      | cons among pending => exact ⟨work, .nil work, among, pending⟩
  | cons first rest ih =>
      cases turns with
      | cons among pending runs others =>
          obtain ⟨between, turns, found⟩ := ih others
          exact ⟨between, .cons among pending runs turns, found⟩

theorem mem_required (turns : config.Turns registry work made after) : name ∈ after.required ↔
    name ∈ work.required ∨ name ∈ (made.flatMap registry.fieldTargets).map config.messageName := by
  induction turns with
  | nil => simp
  | cons _ pending runs _ ih =>
      obtain ⟨schema, prepared, does, rfl⟩ := made_of_isPending pending runs
      rw [ih, required_finish, does.required, ← mem_names_fieldTargets, List.flatMap_cons,
        List.map_append, List.mem_append, or_assoc]

/-- What is done is done by the turn of a message of that name, or by the turn of an error. -/
theorem mem_finished (turns : config.Turns registry work made after) : name ∈ after.finished ↔
    name ∈ work.finished ∨ ∃ message ∈ made, config.messageName message = name ∨
      (message.fullName = WellKnown.statusMessage ∧ config.schemaName anyIdentity = name) := by
  induction turns with
  | nil => simp
  | cons _ pending runs _ ih =>
      obtain ⟨schema, prepared, does, rfl⟩ := made_of_isPending pending runs
      rw [ih, mem_finished_finish, does.finished, List.exists_mem_cons_iff]
      grind

/-- The schemas of names that are done stay. -/
theorem kept (turns : config.Turns registry work made after) (done : name ∈ work.finished) :
    after.schemas.get? (.string name) = work.schemas.get? (.string name) := by
  induction turns with
  | nil => rfl
  | cons _ pending runs _ ih =>
      obtain ⟨schema, prepared, does, rfl⟩ := made_of_isPending pending runs
      have ready := (does.finished name).mpr (.inl done)
      rw [ih (mem_finished_finish.mpr (.inr ready)), get?_finish_of_mem ready, does.kept name done]

/-- In the end the schema of a message stands under its name, unless it brought another schema of
that name with it. -/
theorem own (turns : config.Turns registry work made after) (inside : message ∈ made)
    (apart : message.fullName = WellKnown.statusMessage →
      config.messageName message ≠ config.schemaName anyIdentity) :
    ∃ schema, after.schemas.get? (.string (config.messageName message)) = some schema ∧
      config.IsSchemaOf registry message schema := by
  induction turns with
  | nil => exact (List.not_mem_nil inside).elim
  | cons _ pending runs rest ih =>
      rcases List.mem_cons.mp inside with rfl | inside
      · obtain ⟨schema, prepared, does, rfl⟩ := made_of_isPending pending runs
        have fresh : config.messageName message ∉ prepared.finished := by
          intro done
          rcases (does.finished _).mp done with done | ⟨any, status⟩
          · exact (isPending_iff.mp pending).2 done
          · exact apart status any
        refine ⟨schema, ?_, does.own⟩
        rw [rest.kept (mem_finished_finish.mpr (.inl rfl)), get?_finish_self fresh]
      · exact ih inside

end Turns

theorem turns_of_makeInTurn (among : message ∈ registry.fileMessages)
    (runs : (config.makeInTurn registry message).Runs work made after) :
    config.Turns registry work made after := by
  obtain ⟨turn, rfl⟩ := runs_makeInTurn_iff.mp runs
  split
  next pending => exact .cons among pending turn (.nil after)
  next idle =>
    rcases addMessageSchema_cases turn with ⟨-, rfl⟩ | ⟨pending, -⟩
    · exact .nil after
    · exact (idle pending).elim

/-- The turns of a loop are those of its rounds. -/
theorem turns_of_mapM {α β : Type} {items : List α} {body : α → Build β} {told : β → List Message}
    (round : ∀ item ∈ items, ∀ {work value after}, Runs (body item) work value after →
      config.Turns registry work (told value) after)
    {values : List β} (runs : Runs (items.mapM body) work values after) :
    config.Turns registry work (values.flatMap told) after := by
  induction items generalizing work values with
  | nil =>
      obtain ⟨rfl, rfl⟩ := runs_pure.mp runs
      exact .nil after
  | cons item rest ih =>
      rw [List.forall_mem_cons] at round
      rw [List.mapM_cons] at runs
      simp only [runs_bind, runs_pure] at runs
      obtain ⟨value, between, first, others, _, later, rfl, rfl⟩ := runs
      rw [List.flatMap_cons]
      exact (round.1 first).append (ih round.2 later)

theorem turns_of_makePass (runs : (config.makePass registry).Runs work made after) :
    config.Turns registry work made after := by
  unfold makePass at runs
  simp only [runs_bind, runs_pure] at runs
  obtain ⟨told, _, runs, rfl, rfl⟩ := runs
  rw [List.flatten_flatten, ← List.flatMap_def]
  refine turns_of_mapM (fun file inside _ told _ runs => ?_) runs
  rw [← List.flatMap_id]
  exact turns_of_mapM (fun message within _ _ _ runs =>
    turns_of_makeInTurn (List.mem_flatMap.mpr ⟨file, inside, within⟩) runs) runs

theorem turns_of_makeLoop {fuel : Nat}
    (runs : (config.makeLoop registry fuel).Runs work made after) :
    config.Turns registry work made after := by
  induction fuel generalizing work made with
  | zero =>
      obtain ⟨rfl, rfl⟩ := runs_pure.mp runs
      exact .nil after
  | succ fuel ih =>
      unfold makeLoop at runs
      simp only [runs_bind, runs_get] at runs
      obtain ⟨_, start, ⟨rfl, rfl⟩, first, _, pass, _, ended, ⟨rfl, rfl⟩, rest⟩ := runs
      have begun := turns_of_makePass pass
      split at rest
      · simp only [runs_bind, runs_pure] at rest
        obtain ⟨others, _, rest, rfl, rfl⟩ := rest
        exact begun.append (ih rest)
      · obtain ⟨rfl, rfl⟩ := runs_pure.mp rest
        exact begun

/-! ## References -/

/-- Some of the messages is one of the registry that has the name of a message, and is this message
itself if no other message of the registry has that name. -/
def RefersBack (config : Config) (registry : Registry) (targets : List Message)
    (message : Message) : Prop :=
  ∃ target ∈ targets, target ∈ registry.fileMessages ∧
    config.messageName target = config.messageName message ∧
    ((∀ other ∈ registry.fileMessages, config.messageName other = config.messageName message →
      other = message) → target = message)

theorem mem_of_references (indexed : registry.Indexed) {target : Message}
    (member : target ∈ config.references registry files made) : target ∈ registry.fileMessages := by
  have known : ∃ entry ∈ registry.messages, entry.2 = target := by
    rcases List.mem_append.mp member with operated | held
    · obtain ⟨file, -, operated⟩ := List.mem_flatMap.mp operated
      exact mem_of_fileTargets operated
    · obtain ⟨source, -, held⟩ := List.mem_flatMap.mp held
      unfold Registry.fieldTargets at held
      split at held
      · obtain ⟨field, -, held⟩ := List.mem_flatMap.mp held
        exact Registry.mem_of_targets held
      · exact (List.not_mem_nil held).elim
  obtain ⟨entry, inside, rfl⟩ := known
  exact indexed.defined entry inside

/-- The names that are noted after some turns are those of the messages that were referred to. -/
theorem Turns.mem_references {base : Option Element} {operated : Workspace}
    (operations : (files.forM (config.addFile registry)).Runs
      { document := initialDocument config base } () operated)
    (turns : config.Turns registry operated made after) : name ∈ after.required ↔
      ∃ target ∈ config.references registry files made, config.messageName target = name := by
  rw [turns.mem_required, addFiles_refersTo files operations, mem_requireAll, or_iff_right
    (List.not_mem_nil), ← List.mem_append, ← List.map_append, List.mem_map]
  rfl

/-- What became of the names and schemas of a document while the schemas of some messages were
made, one after the other. -/
structure MadeForReferences (config : Config) (registry : Registry) (files : List SourceFile)
    (operated : Workspace) (made : List Message) (resolved : Workspace) : Prop where
  /-- What is done was done before, has the name of one of the messages, or came with an error. -/
  finished : ∀ name, name ∈ resolved.finished ↔ name ∈ operated.finished ∨
    ∃ message ∈ made, config.messageName message = name ∨
      (message.fullName = WellKnown.statusMessage ∧ config.schemaName anyIdentity = name)
  /-- Under the name of each message stands its schema. -/
  own : ∀ message ∈ made, (message.fullName = WellKnown.statusMessage →
      config.messageName message ≠ config.schemaName anyIdentity) →
    ∃ schema, resolved.schemas.get? (.string (config.messageName message)) = some schema ∧
      config.IsSchemaOf registry message schema
  /-- The names that are noted are those of what operations and the messages refer to. -/
  noted : ∀ name, name ∈ resolved.required ↔
    ∃ target ∈ config.references registry files made, config.messageName target = name
  /-- Before the schema of a message was made there was a reference to a message of its name. -/
  referred : ∀ earlier message later, made = earlier ++ message :: later →
    message ∈ registry.fileMessages ∧
      config.RefersBack registry (config.references registry files earlier) message

/-- While references are resolved, the schema of a message is made only after a reference to a
message of its name: to that message itself, unless messages share the name. -/
theorem schemas_made_for_references {config : Config} {generated : List String}
    {definitions : List FileDefinition} {files : List SourceFile} {base : Option Element}
    {operated resolved : Workspace}
    (operations : (files.forM (config.addFile (.ofFiles generated definitions))).Runs
      { document := initialDocument config base } () operated)
    (resolves : (config.resolveSchemas (.ofFiles generated definitions)).Runs operated ()
      resolved) :
    ∃ made, (config.makeSchemas (.ofFiles generated definitions)).Runs operated made resolved ∧
      config.MadeForReferences (.ofFiles generated definitions) files operated made resolved := by
  have indexed := Registry.indexed_ofFiles generated definitions
  obtain ⟨made, runs⟩ := runs_resolveLoop_iff.mp resolves
  have turns := turns_of_makeLoop runs
  refine ⟨made, runs, fun name => turns.mem_finished, fun message => turns.own,
    fun name => turns.mem_references operations, ?_⟩
  rintro earlier message later rfl
  obtain ⟨between, before, among, pending⟩ := turns.split
  obtain ⟨target, inside, named⟩ :=
    (before.mem_references operations).mp (isPending_iff.mp pending).1
  have known := mem_of_references indexed inside
  exact ⟨among, target, inside, known, named, fun alone => alone target known named⟩

/-- The schemas of the library are made for the references of its operation and of its shelves. -/
theorem library_made_for_references : ∃ operated resolved made,
    (libraryRegistry.files.forM (libraryConfig.addFile libraryRegistry)).Runs
      { document := initialDocument libraryConfig none } () operated ∧
    (libraryConfig.makeSchemas libraryRegistry).Runs operated made resolved ∧
    libraryConfig.MadeForReferences libraryRegistry libraryRegistry.files operated made
      resolved := by
  have ends : ((do
      libraryRegistry.files.forM (libraryConfig.addFile libraryRegistry)
      libraryConfig.resolveSchemas libraryRegistry : Build Unit).run'
        { document := initialDocument libraryConfig none }).isSome = true := by decide +kernel
  obtain ⟨_, resolved, runs⟩ := exists_runs_of_isSome ends
  obtain ⟨_, operated, operations, resolves⟩ := runs_bind.mp runs
  obtain ⟨made, makes, account⟩ := schemas_made_for_references operations resolves
  exact ⟨operated, resolved, made, operations, makes, account⟩

/-- An archive that keeps books. -/
def archiveFile : FileDefinition where
  name := "archive.proto"
  package := "archive"
  messages := [{ name := "Book", fields := [{ name := "shelfmark", type := .string }] }]

/-- A catalog that lists books of its own. -/
def catalogFile : FileDefinition where
  name := "catalog.proto"
  package := "catalog"
  messages := [{ name := "Book", fields := [{ name := "title", type := .string }] }]
  services := [
    { name := "Catalog"
      methods := [
        { name := "GetBook"
          input := ".catalog.Book"
          output := ".catalog.Book"
          rules := [{ pattern := .verb "get" "/books/\x7btitle\x7d" }] }] }]

/-- The registry of the catalog, which depends on the archive. -/
def catalogRegistry : Registry := .ofFiles ["catalog.proto"] [archiveFile, catalogFile]

/-- Messages that share a name stand for each other: the book of the catalog is referred to, and the
schema of the book of the archive is made for it. -/
theorem archive_made_for_catalog :
    (∀ file ∈ catalogRegistry.files, file.Plain ∧ ∀ message ∈ file.messages, message.Plain) ∧
    ∃ operated made resolved,
      (catalogRegistry.generatedFiles.forM (libraryConfig.addFile catalogRegistry)).Runs
        { document := initialDocument libraryConfig none } () operated ∧
      (libraryConfig.makeSchemas catalogRegistry).Runs operated made resolved ∧
      ∃ message ∈ made, message.fullName = "archive.Book" ∧
        message ∉ libraryConfig.references catalogRegistry catalogRegistry.generatedFiles made := by
  refine ⟨by decide +kernel, ?_⟩
  have tells : ((do
      catalogRegistry.generatedFiles.forM (libraryConfig.addFile catalogRegistry)
      libraryConfig.makeSchemas catalogRegistry : Build (List Message)).run'
        { document := initialDocument libraryConfig none }).any fun made =>
          made.any fun message => message.fullName = "archive.Book" ∧
            message ∉ libraryConfig.references catalogRegistry catalogRegistry.generatedFiles
              made := by decide +kernel
  obtain ⟨made, comes, unreferred⟩ := (Option.any_eq_true _ _).mp tells
  obtain ⟨resolved, runs⟩ := exists_runs_of_eq_some comes
  obtain ⟨_, operated, operations, makes⟩ := runs_bind.mp runs
  obtain ⟨message, inside, differs⟩ := List.any_eq_true.mp unreferred
  exact ⟨operated, made, resolved, operations, makes, message, inside, of_decide_eq_true differs⟩

end Config

end ServiceDoc
