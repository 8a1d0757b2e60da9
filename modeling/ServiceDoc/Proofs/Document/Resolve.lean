import ServiceDoc.Proofs.Document.Operations

/-!
# Resolving references

The component schemas of all messages that are referred to are added in passes over the messages of
all files. A pass that brings no new reference has added every schema that is referred to; since
references are to messages of the registry, there is such a pass before the passes run out.
-/

namespace ServiceDoc

open Build Workspace

namespace Config

variable {config : Config} {registry : Registry} {work between after : Workspace}
  {message : Message} {schema : Element}

/-! ## One message -/

/-- The component schema of a message whose form in JSON is not its structure. -/
def specialSchema? (config : Config) (message : Message) : Option Element :=
  if message.fullName = WellKnown.valueMessage then some WellKnown.valueSchema
  else if message.fullName = WellKnown.anyMessage then some WellKnown.anySchema
  else if message.fullName = WellKnown.statusMessage then
    some (WellKnown.statusSchema (config.schemaName anyIdentity))
  else none

/-- A workspace with what the schema of a message brings with it: an error brings the schema of any
message. -/
def prepare (config : Config) (message : Message) (work : Workspace) : Workspace :=
  if message.fullName = WellKnown.statusMessage then
    work.finish (config.schemaName anyIdentity) WellKnown.anySchema
  else work

/-- The schema of a message is made: a special one is prepared for, an ordinary one refers to the
targets of the fields of the message. -/
inductive Makes (config : Config) (registry : Registry) (message : Message) (work : Workspace) :
    Element → Workspace → Prop where
  | special {schema : Element} (known : config.specialSchema? message = some schema) :
      Makes config registry message work schema (config.prepare message work)
  | ordinary {schema : Element} {after : Workspace}
      (unknown : config.specialSchema? message = none)
      (runs : (config.messageSchema registry message).Runs work schema after) :
      Makes config registry message work schema after

/-- A message is passed over if its name is not pending, and otherwise its schema is made and
added. -/
theorem addMessageSchema_cases
    (runs : (config.addMessageSchema registry message).Runs work () after) :
    (work.isPending (config.messageName message) = false ∧ after = work) ∨
      (work.isPending (config.messageName message) = true ∧ ∃ schema between,
        config.Makes registry message work schema between ∧
          after = between.finish (config.messageName message) schema) := by
  have prepared (other : message.fullName ≠ WellKnown.statusMessage) :
      config.prepare message work = work := if_neg other
  unfold addMessageSchema at runs
  simp only [runs_bind, runs_get] at runs
  obtain ⟨_, _, ⟨rfl, rfl⟩, runs⟩ := runs
  cases pending : Workspace.isPending _ (config.messageName message) with
  | false =>
      simp only [pending, if_false, Bool.false_eq_true, runs_pure, true_and] at runs
      exact .inl ⟨rfl, runs⟩
  | true =>
      simp only [pending, if_true] at runs
      refine .inr ⟨rfl, ?_⟩
      by_cases value : message.fullName = WellKnown.valueMessage
      · rw [if_pos value] at runs
        have other : message.fullName ≠ WellKnown.statusMessage := by rw [value]; decide
        refine ⟨_, _, .special (if_pos value), ?_⟩
        rw [prepared other]
        exact finish_of_runs_discard runs
      rw [if_neg value] at runs
      by_cases any : message.fullName = WellKnown.anyMessage
      · rw [if_pos any] at runs
        have other : message.fullName ≠ WellKnown.statusMessage := by rw [any]; decide
        refine ⟨_, _, .special ((if_neg value).trans (if_pos any)), ?_⟩
        rw [prepared other]
        exact finish_of_runs_discard runs
      rw [if_neg any] at runs
      by_cases status : message.fullName = WellKnown.statusMessage
      · rw [if_pos status, runs_bind] at runs
        obtain ⟨_, _, first, second⟩ := runs
        refine ⟨_, _, .special (((if_neg value).trans (if_neg any)).trans (if_pos status)), ?_⟩
        rw [prepare, if_pos status, ← finish_of_runs_discard first]
        exact finish_of_runs_discard second
      · rw [if_neg status, runs_bind] at runs
        obtain ⟨schema, between, made, added⟩ := runs
        exact ⟨schema, between,
          .ordinary (((if_neg value).trans (if_neg any)).trans (if_neg status)) made,
          finish_of_runs_discard added⟩

/-- A name is pending if it is referred to and not done. -/
theorem isPending_iff {name : String} :
    work.isPending name = true ↔ name ∈ work.required ∧ name ∉ work.finished := by
  simp [isPending]

/-- The second workspace is the first with more references and more schemas. -/
structure Grows (work after : Workspace) : Prop where
  required : work.required <+: after.required
  finished : ∀ name ∈ work.finished, name ∈ after.finished

theorem Grows.refl (work : Workspace) : Grows work work := ⟨List.prefix_rfl, fun _ => id⟩

theorem Grows.trans (first : Grows work between) (second : Grows between after) :
    Grows work after :=
  ⟨first.required.trans second.required,
    fun name member => second.finished name (first.finished name member)⟩

theorem grows_finish (name : String) (schema : Element) : Grows work (work.finish name schema) :=
  ⟨by simp only [required_finish, List.prefix_rfl],
    fun _ member => mem_finished_finish.mpr (.inr member)⟩

theorem grows_prepare : Grows work (config.prepare message work) := by
  unfold prepare
  split
  · exact grows_finish _ _
  · exact .refl work

/-- Making a schema refers to messages of the registry. -/
theorem messageSchema_mentions
    (runs : (config.messageSchema registry message).Runs work schema after) :
    Mentions (config.Knows registry) work after := by
  obtain ⟨refers, -⟩ := messageSchema_runs runs
  refine ⟨_, fun name member => ?_, refers⟩
  obtain ⟨field, -, inside⟩ := List.mem_flatMap.mp member
  exact knows_of_targetNames name inside

theorem Makes.grows (makes : config.Makes registry message work schema after) :
    Grows work after := by
  cases makes with
  | special => exact grows_prepare
  | ordinary _ runs =>
      have mentions := messageSchema_mentions runs
      exact ⟨mentions.required_prefix, fun name member => mentions.finished ▸ member⟩

/-- After its turn, a message that was referred to is done. -/
theorem addMessageSchema_grows
    (runs : (config.addMessageSchema registry message).Runs work () after) :
    Grows work after ∧ (config.messageName message ∈ work.required →
      config.messageName message ∈ after.finished) := by
  rcases addMessageSchema_cases runs with ⟨idle, rfl⟩ | ⟨pending, schema, between, makes, rfl⟩
  · refine ⟨.refl _, fun member => ?_⟩
    by_contra undone
    exact Bool.false_ne_true (idle.symm.trans (isPending_iff.mpr ⟨member, undone⟩))
  · exact ⟨makes.grows.trans (grows_finish _ _), fun _ => mem_finished_finish.mpr (.inl rfl)⟩

theorem known_finish {name : String} (known : Known config registry work) :
    Known config registry (work.finish name schema) :=
  ⟨by rw [required_finish]; exact known.among, by rw [required_finish]; exact known.distinct⟩

theorem known_addMessageSchema (known : Known config registry work)
    (runs : (config.addMessageSchema registry message).Runs work () after) :
    Known config registry after := by
  rcases addMessageSchema_cases runs with ⟨-, rfl⟩ | ⟨-, schema, between, makes, rfl⟩
  · exact known
  · cases makes with
    | special =>
        refine known_finish ?_
        unfold prepare
        split
        · exact known_finish known
        · exact known
    | ordinary _ runs => exact known_finish (known.later (messageSchema_mentions runs))

/-! ## Passes -/

/-- A pass preserves what the turn of every message preserves. -/
theorem resolvePass_preserves {holds : Workspace → Prop}
    (kept : ∀ message ∈ registry.fileMessages, ∀ {before between}, holds before →
      (config.addMessageSchema registry message).Runs before () between → holds between)
    (start : holds work) (runs : (config.resolvePass registry).Runs work () after) :
    holds after :=
  Runs.forM_preserves (fun file member _ _ start runs =>
    Runs.forM_preserves (fun message inside _ _ start runs =>
      kept message (List.mem_flatMap.mpr ⟨file, member, inside⟩) start runs) start runs) start runs

/-- After a pass, every message that was referred to before is done. -/
theorem resolvePass_runs (runs : (config.resolvePass registry).Runs work () after) :
    Grows work after ∧ ∀ message ∈ registry.fileMessages,
      config.messageName message ∈ work.required →
        config.messageName message ∈ after.finished := by
  have turn (message : Message) {before between : Workspace} (reached : Grows work before)
      (runs : (config.addMessageSchema registry message).Runs before () between) :
      Grows before between ∧ (config.messageName message ∈ work.required →
        config.messageName message ∈ between.finished) := by
    obtain ⟨grows, done⟩ := addMessageSchema_grows runs
    exact ⟨grows, fun member => done (reached.required.subset member)⟩
  have round (file : SourceFile) {before between : Workspace} (reached : Grows work before)
      (runs : (file.messages.forM (config.addMessageSchema registry)).Runs before () between) :
      Grows before between ∧ ∀ message ∈ file.messages,
        config.messageName message ∈ work.required →
          config.messageName message ∈ between.finished :=
    Runs.forM_relates Grows (fun between message => config.messageName message ∈ work.required →
        config.messageName message ∈ between.finished) Grows.refl Grows.trans
      (fun grows done member => grows.finished _ (done member))
      (fun message _ _ _ later runs => turn message (reached.trans later) runs) runs
  obtain ⟨grows, each⟩ := Runs.forM_relates Grows
    (fun between (file : SourceFile) => ∀ message ∈ file.messages,
      config.messageName message ∈ work.required → config.messageName message ∈ between.finished)
    Grows.refl Grows.trans
    (fun grows done message inside member => grows.finished _ (done message inside member))
    (fun file _ _ _ reached runs => round file reached runs) runs
  refine ⟨grows, fun message inside member => ?_⟩
  obtain ⟨file, among, inside⟩ := List.mem_flatMap.mp inside
  exact each file among message inside member

/-! ## The loop -/

/-- The loop preserves what the turn of every message preserves. -/
theorem resolveLoop_preserves {holds : Workspace → Prop}
    (kept : ∀ message ∈ registry.fileMessages, ∀ {before between}, holds before →
      (config.addMessageSchema registry message).Runs before () between → holds between)
    {fuel : Nat} (start : holds work)
    (runs : (config.resolveLoop registry fuel).Runs work () after) :
    holds after := by
  induction fuel generalizing work with
  | zero =>
      obtain ⟨-, rfl⟩ := runs_pure.mp runs
      exact start
  | succ fuel ih =>
      unfold resolveLoop at runs
      simp only [runs_bind, runs_get] at runs
      obtain ⟨_, _, ⟨rfl, rfl⟩, _, between, pass, _, _, ⟨rfl, rfl⟩, rest⟩ := runs
      have held := resolvePass_preserves kept start pass
      split at rest
      · exact ih held rest
      · obtain ⟨-, rfl⟩ := runs_pure.mp rest
        exact held

/-- The loop comes to an end if the turn of every message does from where an invariant holds, and
keeps it. -/
theorem exists_runs_resolveLoop {holds : Workspace → Prop}
    (turn : ∀ message ∈ registry.fileMessages, ∀ {before}, holds before →
      ∃ after, (config.addMessageSchema registry message).Runs before () after ∧ holds after)
    (fuel : Nat) (start : holds work) :
    ∃ after, (config.resolveLoop registry fuel).Runs work () after := by
  induction fuel generalizing work with
  | zero => exact ⟨work, runs_pure.mpr ⟨rfl, rfl⟩⟩
  | succ fuel ih =>
      obtain ⟨between, pass, held⟩ : ∃ between,
          (config.resolvePass registry).Runs work () between ∧ holds between :=
        exists_runs_forM (fun file member _ held => exists_runs_forM (fun message inside _ held =>
          turn message (List.mem_flatMap.mpr ⟨file, member, inside⟩) held) held) start
      obtain ⟨after, later⟩ := ih held
      unfold resolveLoop
      simp only [runs_bind, runs_get]
      by_cases same : between.required.length = work.required.length
      · refine ⟨between, work, work, ⟨rfl, rfl⟩, (), between, pass, between, between, ⟨rfl, rfl⟩, ?_⟩
        rw [if_neg (by simpa using same)]
        exact runs_pure.mpr ⟨rfl, rfl⟩
      · refine ⟨after, work, work, ⟨rfl, rfl⟩, (), between, pass, between, between, ⟨rfl, rfl⟩, ?_⟩
        rw [if_pos same]
        exact later

/-- Different names of messages are at most as many as the messages. -/
theorem Known.length_le (known : Known config registry work) :
    work.required.length ≤ registry.messages.length := by
  have inside : work.required ⊆ registry.messages.map fun entry => config.messageName entry.2 := by
    intro name member
    obtain ⟨entry, among, rfl⟩ := known.among name member
    exact List.mem_map.mpr ⟨entry, among, rfl⟩
  simpa using known.distinct.length_le_of_subset inside

/-- Unless the passes run out before as many names were referred to as there are messages, every
name that is referred to is done in the end. -/
theorem resolveLoop_runs (indexed : registry.Indexed) {fuel : Nat}
    (known : Known config registry work)
    (enough : registry.messages.length < fuel + work.required.length)
    (runs : (config.resolveLoop registry fuel).Runs work () after) :
    ∀ name ∈ after.required, name ∈ after.finished := by
  -- Every pass but the last refers to a new name, which makes up for the fuel that it takes.
  induction fuel generalizing work with
  | zero => exact absurd known.length_le (by omega)
  | succ fuel ih =>
      unfold resolveLoop at runs
      simp only [runs_bind, runs_get] at runs
      obtain ⟨_, start, ⟨rfl, rfl⟩, _, _, pass, _, ended, ⟨rfl, rfl⟩, rest⟩ := runs
      obtain ⟨grows, done⟩ := resolvePass_runs pass
      have later := resolvePass_preserves (fun _ _ _ _ => known_addMessageSchema) known pass
      by_cases same : ended.required.length = start.required.length
      · rw [if_neg (by simpa using same)] at rest
        obtain ⟨-, rfl⟩ := runs_pure.mp rest
        intro name member
        rw [← grows.required.eq_of_length same.symm] at member
        obtain ⟨entry, among, rfl⟩ := known.among name member
        exact done entry.2 (indexed.defined entry among) member
      · rw [if_pos same] at rest
        have longer := grows.required.length_le
        exact ih later (by omega) rest

/-- In the end every schema that is referred to is done. -/
theorem resolveSchemas_runs (indexed : registry.Indexed) (known : Known config registry work)
    (runs : (config.resolveSchemas registry).Runs work () after) :
    ∀ name ∈ after.required, name ∈ after.finished :=
  resolveLoop_runs indexed known (by omega) runs

end Config

end ServiceDoc
