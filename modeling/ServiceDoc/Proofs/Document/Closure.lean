import ServiceDoc.Proofs.Document.Union

/-!
# Resolving references in another order

Which component schemas are added while references are resolved depends on the messages that are
needed, and not on the order of the files nor on files that are not needed: whichever order they
come in, resolving references ends in the same cases, and adds the same schemas.
-/

namespace ServiceDoc

open Build Workspace

namespace Workspace

/-- A document with component schemas put one after the other. -/
def putSchemas (document : Element) (added : List (String × Element)) : Element :=
  added.foldl (fun document entry => putSchema document entry.1 entry.2) document

theorem putSchemas_concat (document : Element) (added : List (String × Element)) (name : String)
    (schema : Element) : putSchemas document (added ++ [(name, schema)]) =
      putSchema (putSchemas document added) name schema :=
  List.foldl_concat ..

end Workspace

namespace Config

/-- Another registry has the messages of a registry with the schemas that they have there, and no
other messages under their schema names. -/
structure Mirrors (config : Config) (registry other : Registry) : Prop where
  indexed : other.Indexed
  schemas : ∀ message ∈ registry.fileMessages,
    config.messageSchema other message = config.messageSchema registry message
  /-- The messages are found in the other registry. -/
  found : ∀ message ∈ registry.fileMessages, ∃ entry ∈ other.messages, entry.2 = message
  alone : ∀ message ∈ registry.fileMessages, ∀ namesake ∈ other.fileMessages,
    config.messageName namesake = config.messageName message → namesake = message

/-- A message is needed if its name is referred to at the start, or by an ordinary message that is
needed and was not done at the start. -/
inductive Needs (config : Config) (registry : Registry) (start : Workspace) : Message → Prop where
  | root {message : Message} (among : message ∈ registry.fileMessages)
      (named : config.messageName message ∈ start.required) : Needs config registry start message
  /-- A message that a field refers to. -/
  | field {source message : Message} (needs : Needs config registry start source)
      (undone : config.messageName source ∉ start.finished) (ordinary : source.IsOrdinary)
      (among : message ∈ registry.fileMessages)
      (named : config.messageName message ∈ config.edgeNames registry source) :
      Needs config registry start message

/-- If the schema of an error that is needed brings that of any message, the name of this is that of
no other message that is needed. -/
def SparesAny (config : Config) (registry : Registry) (start : Workspace) : Prop :=
  config.schemaName anyIdentity ∉ start.finished →
    ∀ error, config.Needs registry start error → error.fullName = WellKnown.statusMessage →
      ∀ message, config.Needs registry start message →
        config.messageName message = config.schemaName anyIdentity →
          message.fullName = WellKnown.anyMessage

/-- A schema is to be added under a name: that of a message that is needed, or with an error that of
any message. -/
def Provides (config : Config) (registry : Registry) (start : Workspace) (name : String)
    (schema : Element) : Prop :=
  name ∉ start.finished ∧
    ((∃ message, config.Needs registry start message ∧ config.messageName message = name ∧
      config.IsSchemaOf registry message schema) ∨
    (name = config.schemaName anyIdentity ∧ schema = WellKnown.anySchema ∧
      ∃ error, config.Needs registry start error ∧ error.fullName = WellKnown.statusMessage ∧
        config.messageName error ∉ start.finished))

/-- Some schemas were added since the start: each of them is to be added, and what they refer to is
noted. -/
structure Growing (config : Config) (registry : Registry) (start : Workspace)
    (added : List (String × Element)) (work : Workspace) : Prop where
  document : work.document = putSchemas start.document added
  /-- What is done was added or done at the start. -/
  finished : ∀ name, name ∈ work.finished ↔ name ∈ added.map Prod.fst ∨ name ∈ start.finished
  distinct : (added.map Prod.fst).Nodup
  provides : ∀ entry ∈ added, config.Provides registry start entry.1 entry.2
  /-- What was referred to at the start is noted. -/
  rooted : ∀ name ∈ start.required, name ∈ work.required
  justified : ∀ name ∈ work.required, ∃ message, config.Needs registry start message ∧
    config.messageName message = name
  /-- What an ordinary message that was added refers to is noted. -/
  closed : ∀ message, config.Needs registry start message →
    config.messageName message ∈ added.map Prod.fst → message.IsOrdinary →
      ∀ name ∈ config.edgeNames registry message, name ∈ work.required
  /-- With an error that was added, the schema of any message is done. -/
  brought : ∀ message, config.Needs registry start message →
    config.messageName message ∈ added.map Prod.fst →
      message.fullName = WellKnown.statusMessage → config.schemaName anyIdentity ∈ work.finished

variable {config : Config} {registry other : Registry} {start work after : Workspace}
  {added : List (String × Element)} {message : Message} {name : String} {schema : Element}

theorem Needs.among (needs : config.Needs registry start message) :
    message ∈ registry.fileMessages := by
  cases needs with
  | root among => exact among
  | field _ _ _ among => exact among

/-- Nothing is needed unless something is referred to at the start. -/
theorem Needs.required_ne_nil (needs : config.Needs registry start message) :
    start.required ≠ [] := by
  induction needs with
  | root _ named => exact List.ne_nil_of_mem named
  | field _ _ _ _ _ ih => exact ih

/-! ## One message -/

namespace Growing

theorem init (indexed : registry.Indexed) (known : Known config registry start) :
    config.Growing registry start [] start where
  document := rfl
  finished name := by simp
  distinct := List.nodup_nil
  provides := fun _ member => (List.not_mem_nil member).elim
  rooted := fun _ => id
  justified := fun name member => by
    obtain ⟨entry, among, rfl⟩ := known.among name member
    exact ⟨entry.2, .root (indexed.defined entry among) member, rfl⟩
  closed := fun _ _ member => (List.not_mem_nil member).elim
  brought := fun _ _ member => (List.not_mem_nil member).elim

/-- Noting what a message refers to that is needed and was not done. -/
theorem refer (growing : config.Growing registry start added work) (indexed : registry.Indexed)
    (needs : config.Needs registry start message) (ordinary : message.IsOrdinary)
    (undone : config.messageName message ∉ start.finished)
    (refers : Refers (config.edgeNames registry message) work after) :
    config.Growing registry start added after where
  document := refers.document.trans growing.document
  finished := refers.finished ▸ growing.finished
  distinct := growing.distinct
  provides := growing.provides
  rooted name member := by
    rw [refers.required, mem_requireAll]
    exact .inl (growing.rooted name member)
  justified name member := by
    rw [refers.required, mem_requireAll] at member
    rcases member with member | edge
    · exact growing.justified name member
    · obtain ⟨field, -, target, found, rfl⟩ := exists_target edge
      obtain ⟨entry, among, rfl⟩ := Registry.mem_of_target? found
      exact ⟨entry.2, .field needs undone ordinary (indexed.defined entry among) edge, rfl⟩
  closed other needed member ordinary name edge := by
    rw [refers.required, mem_requireAll]
    exact .inl (growing.closed other needed member ordinary name edge)
  brought other needed member status := refers.finished ▸ growing.brought other needed member status

/-- Adding a schema that is to be added, if what the messages of its name refer to is noted. -/
theorem finish (growing : config.Growing registry start added work)
    (provides : name ∉ work.finished → config.Provides registry start name schema)
    (closed : name ∉ work.finished → ∀ message, config.Needs registry start message →
      config.messageName message = name → message.IsOrdinary →
        ∀ edge ∈ config.edgeNames registry message, edge ∈ work.required)
    (brought : name ∉ work.finished → ∀ message, config.Needs registry start message →
      config.messageName message = name → message.fullName = WellKnown.statusMessage →
        config.schemaName anyIdentity ∈ work.finished) :
    ∃ added, config.Growing registry start added (work.finish name schema) := by
  by_cases done : name ∈ work.finished
  · rw [finish_of_mem done]
    exact ⟨added, growing⟩
  have keys : (added ++ [(name, schema)]).map Prod.fst = added.map Prod.fst ++ [name] :=
    List.map_append
  have either {message : Message}
      (member : config.messageName message ∈ (added ++ [(name, schema)]).map Prod.fst) :
      config.messageName message ∈ added.map Prod.fst ∨ config.messageName message = name := by
    rw [keys, List.mem_append, List.mem_singleton] at member
    exact member
  refine ⟨added ++ [(name, schema)], {
    document := ?document
    finished := fun other => ?finished
    distinct := ?distinct
    provides := fun entry member => ?provides
    rooted := fun other member => by rw [required_finish]; exact growing.rooted other member
    justified := fun other member => growing.justified other (required_finish ▸ member)
    closed := fun message needs member ordinary edge inside => ?closed
    brought := fun message needs member status => ?brought }⟩
  case document =>
    rw [finish_of_notMem done, putSchemas_concat, ← growing.document]
  case finished =>
    rw [mem_finished_finish, growing.finished, keys, List.mem_append, List.mem_singleton]
    exact or_left_comm.trans or_assoc.symm
  case distinct =>
    rw [keys]
    refine List.nodup_append.mpr ⟨growing.distinct, List.nodup_singleton _, ?_⟩
    rintro other member last single rfl
    exact done ((growing.finished _).mpr (.inl (List.mem_singleton.mp single ▸ member)))
  case provides =>
    rcases List.mem_append.mp member with member | member
    · exact growing.provides entry member
    · rw [List.mem_singleton.mp member]
      exact provides done
  case closed =>
    rw [required_finish]
    rcases either member with member | same
    · exact growing.closed message needs member ordinary edge inside
    · exact closed done message needs same ordinary edge inside
  case brought =>
    refine mem_finished_finish.mpr (.inr ?_)
    rcases either member with member | same
    · exact growing.brought message needs member status
    · exact brought done message needs same status

end Growing

/-- A message of a pending name is the needed message of this name. -/
theorem Growing.needs_of_pending (growing : config.Growing registry start added work)
    (mirrors : config.Mirrors registry other) (inside : message ∈ other.fileMessages)
    (pending : work.isPending (config.messageName message) = true) :
    config.Needs registry start message ∧ config.messageName message ∉ start.finished := by
  obtain ⟨referred, undone⟩ := isPending_iff.mp pending
  obtain ⟨needed, needs, named⟩ := growing.justified _ referred
  obtain rfl := mirrors.alone needed needs.among message inside named.symm
  exact ⟨needs, fun early => undone ((growing.finished _).mpr (.inr early))⟩

/-- The turn of a message adds schemas that are to be added. -/
theorem growing_addMessageSchema (self : config.Mirrors registry registry)
    (spares : config.SparesAny registry start) (mirrors : config.Mirrors registry other)
    (inside : message ∈ other.fileMessages)
    (growing : ∃ added, config.Growing registry start added work)
    (runs : (config.addMessageSchema other message).Runs work () after) :
    ∃ added, config.Growing registry start added after := by
  obtain ⟨added, growing⟩ := growing
  rcases addMessageSchema_cases runs with ⟨-, rfl⟩ | ⟨pending, schema, between, makes, rfl⟩
  · exact ⟨added, growing⟩
  obtain ⟨needs, undone⟩ := growing.needs_of_pending mirrors inside pending
  have alone (namesake : Message) (needed : config.Needs registry start namesake)
      (same : config.messageName namesake = config.messageName message) : namesake = message :=
    self.alone message needs.among namesake needed.among same
  cases makes with
  | ordinary unknown made =>
      have ordinary := isOrdinary_of_specialSchema? unknown
      rw [mirrors.schemas message needs.among] at made
      have own : config.IsSchemaOf registry message schema := by
        rw [IsSchemaOf, if_neg ordinary.1, if_neg ordinary.2.1, if_neg ordinary.2.2]
        exact messageSchema_steady message made
      have refers := (messageSchema_runs made).1
      have later := growing.refer self.indexed needs ordinary undone refers
      refine later.finish (fun _ => ⟨undone, .inl ⟨message, needs, rfl, own⟩⟩) ?_ ?_
      · intro _ namesake needed same _ edge member
        rw [refers.required, mem_requireAll, ← alone namesake needed same]
        exact .inr member
      · intro _ namesake needed same status
        exact absurd (alone namesake needed same ▸ status) ordinary.2.2
  | special known =>
      have special := not_isOrdinary_of_specialSchema? known
      have provides : config.Provides registry start (config.messageName message) schema :=
        ⟨undone, .inl ⟨message, needs, rfl, isSchemaOf_of_specialSchema? known⟩⟩
      have closed (namesake : Message) (needed : config.Needs registry start namesake)
          (same : config.messageName namesake = config.messageName message)
          (ordinary : namesake.IsOrdinary) : False :=
        special (alone namesake needed same ▸ ordinary)
      by_cases status : message.fullName = WellKnown.statusMessage
      · have prepared : config.prepare message work =
            work.finish (config.schemaName anyIdentity) WellKnown.anySchema := if_pos status
        have spared (fresh : config.schemaName anyIdentity ∉ work.finished) :=
          spares (fun early => fresh ((growing.finished _).mpr (.inr early))) message needs status
        rw [prepared]
        obtain ⟨more, later⟩ : ∃ more, config.Growing registry start more
            (work.finish (config.schemaName anyIdentity) WellKnown.anySchema) := by
          refine growing.finish (fun fresh => ⟨fun early => fresh
            ((growing.finished _).mpr (.inr early)), .inr ⟨rfl, rfl, message, needs, status,
              undone⟩⟩) ?_ ?_
          · intro fresh namesake needed same ordinary
            exact absurd (spared fresh namesake needed same) ordinary.2.1
          · intro fresh namesake needed same error
            exact absurd ((spared fresh namesake needed same).symm.trans error) (by decide)
        refine later.finish (fun _ => provides) ?_ ?_
        · intro _ namesake needed same ordinary
          exact (closed namesake needed same ordinary).elim
        · intro _ _ _ _ _
          exact mem_finished_finish.mpr (.inl rfl)
      · have prepared : config.prepare message work = work := if_neg status
        rw [prepared]
        refine growing.finish (fun _ => provides) ?_ ?_
        · intro _ namesake needed same ordinary
          exact (closed namesake needed same ordinary).elim
        · intro _ namesake needed same error
          exact absurd (alone namesake needed same ▸ error) status

/-! ## Coming to an end -/

/-- The schemas of all ordinary messages that are needed can be made. -/
def Suffices (config : Config) (registry : Registry) (start : Workspace) : Prop :=
  ∀ message, config.Needs registry start message → config.messageName message ∉ start.finished →
    message.IsOrdinary → ∃ schema, (config.messageSchema registry message).Gives schema

/-- The turn of a message comes to an end, if the schemas that are needed can be made. -/
theorem Growing.exists_turn (growing : config.Growing registry start added work)
    (suffices_ : config.Suffices registry start) (mirrors : config.Mirrors registry other)
    (inside : message ∈ other.fileMessages) :
    ∃ after, (config.addMessageSchema other message).Runs work () after := by
  have adds (name : String) (schema : Element) (work : Workspace) :
      ∃ after, (discard (addSchema name schema) : Build Unit).Runs work () after := by
    obtain ⟨value, after, runs⟩ := exists_runs_addSchema name schema work
    exact ⟨after, runs_discard.mpr ⟨value, runs⟩⟩
  have reads {step : Workspace → Build Unit} (comes : ∃ after, (step work).Runs work () after) :
      ∃ after, (get >>= step).Runs work () after := by
    obtain ⟨after, runs⟩ := comes
    exact ⟨after, runs_bind.mpr ⟨work, work, runs_get.mpr ⟨rfl, rfl⟩, runs⟩⟩
  unfold addMessageSchema
  refine reads ?_
  cases pending : work.isPending (config.messageName message) with
  | false =>
      rw [if_neg Bool.false_ne_true]
      exact ⟨work, runs_pure.mpr ⟨rfl, rfl⟩⟩
  | true =>
      rw [if_pos rfl]
      obtain ⟨needs, undone⟩ := growing.needs_of_pending mirrors inside pending
      split
      · exact adds _ _ work
      next value =>
        split
        · exact adds _ _ work
        next any =>
          split
          · obtain ⟨between, first⟩ := adds (config.schemaName anyIdentity) WellKnown.anySchema work
            obtain ⟨after, second⟩ := adds (config.messageName message)
              (WellKnown.statusSchema (config.schemaName anyIdentity)) between
            exact ⟨after, runs_bind.mpr ⟨(), between, first, second⟩⟩
          next status =>
            obtain ⟨schema, gives⟩ := suffices_ message needs undone ⟨value, any, status⟩
            obtain ⟨between, made⟩ := gives work
            obtain ⟨after, added⟩ := adds (config.messageName message) schema between
            rw [mirrors.schemas message needs.among]
            exact ⟨after, runs_bind.mpr ⟨schema, between, made, added⟩⟩

/-! ## The end -/

/-- One schema is to be added under a name. -/
theorem Provides.unique (self : config.Mirrors registry registry)
    (spares : config.SparesAny registry start) {another : Element}
    (first : config.Provides registry start name schema)
    (second : config.Provides registry start name another) : schema = another := by
  have any {message error : Message} {schema : Element}
      (undone : config.schemaName anyIdentity ∉ start.finished)
      (needs : config.Needs registry start message)
      (error_needs : config.Needs registry start error)
      (status : error.fullName = WellKnown.statusMessage)
      (same : config.messageName message = config.schemaName anyIdentity)
      (own : config.IsSchemaOf registry message schema) : schema = WellKnown.anySchema :=
    isSchemaOf_any (spares undone error error_needs status message needs same) own
  rcases first.2 with ⟨message, needs, rfl, own⟩ | ⟨rfl, rfl, error, error_needs, status, -⟩
  · rcases second.2 with ⟨namesake, needed, same, again⟩ |
        ⟨named, rfl, error, error_needs, status, -⟩
    · obtain rfl := self.alone message needs.among namesake needed.among same
      exact own.unique again
    · exact any (named ▸ first.1) needs error_needs status named own
  · rcases second.2 with ⟨namesake, needed, same, again⟩ | ⟨-, rfl, -⟩
    · exact (any first.1 needed error_needs status same again).symm
    · rfl

namespace Growing

variable (growing : config.Growing registry start added work)
  (done : ∀ name ∈ work.required, name ∈ work.finished)

include growing done

/-- In the end all messages that are needed are referred to. -/
theorem required_of_needs (needs : config.Needs registry start message) :
    config.messageName message ∈ work.required := by
  induction needs with
  | root _ named => exact growing.rooted _ named
  | @field source message needs undone ordinary _ named ih =>
      have finished := (growing.finished _).mp (done _ ih)
      exact growing.closed source needs (finished.resolve_right undone) ordinary _ named

/-- In the end what was added is what is to be added. -/
theorem mem_added (self : config.Mirrors registry registry)
    (spares : config.SparesAny registry start) :
    (name, schema) ∈ added ↔ config.Provides registry start name schema := by
  refine ⟨fun member => growing.provides _ member, fun provides => ?_⟩
  have finished : name ∈ work.finished := by
    rcases provides.2 with ⟨message, needs, rfl, -⟩ | ⟨rfl, -, error, needs, status, undone⟩
    · exact done _ (growing.required_of_needs done needs)
    · have finished := done _ (growing.required_of_needs done needs)
      have error_added := ((growing.finished _).mp finished).resolve_right undone
      exact growing.brought error needs error_added status
  obtain ⟨⟨name, another⟩, member, rfl⟩ :=
    List.mem_map.mp (((growing.finished _).mp finished).resolve_right provides.1)
  rw [provides.unique self spares (growing.provides _ member)]
  exact member

/-- If all that is referred to is done, the schemas that are needed could be made. -/
theorem suffices_of_done (self : config.Mirrors registry registry)
    (spares : config.SparesAny registry start) : config.Suffices registry start := by
  intro message needs undone ordinary
  have finished := done _ (growing.required_of_needs done needs)
  obtain ⟨⟨name, schema⟩, member, named⟩ :=
    List.mem_map.mp (((growing.finished _).mp finished).resolve_right undone)
  rcases (growing.provides _ member).2 with ⟨namesake, needed, same, own⟩ | ⟨any, -, error⟩
  · obtain rfl := self.alone message needs.among namesake needed.among (same.trans named)
    rw [IsSchemaOf, if_neg ordinary.1, if_neg ordinary.2.1, if_neg ordinary.2.2] at own
    exact ⟨schema, own⟩
  · obtain ⟨error, error_needs, status, -⟩ := error
    have fresh : config.schemaName anyIdentity ∉ start.finished :=
      any ▸ (growing.provides _ member).1
    exact absurd (spares fresh error error_needs status message needs (named.symm.trans any))
      ordinary.2.1

end Growing

theorem Mirrors.known (mirrors : config.Mirrors registry other) (indexed : registry.Indexed)
    (known : Known config registry work) : Known config other work := by
  refine ⟨fun name member => ?_, known.distinct⟩
  obtain ⟨entry, among, rfl⟩ := known.among name member
  obtain ⟨another, inside, same⟩ := mirrors.found _ (indexed.defined entry among)
  exact ⟨another, inside, congrArg config.messageName same⟩

/-- Resolving references with one registry or with another that both have the messages that are
needed: if it comes to an end with one, it does with the other, and adds the same schemas. -/
theorem resolveSchemas_perm {another : Registry} (self : config.Mirrors registry registry)
    (spares : config.SparesAny registry start) (mirrors : config.Mirrors registry other)
    (mirrors_too : config.Mirrors registry another) (known : Known config registry start)
    (runs : (config.resolveSchemas other).Runs start () after) :
    ∃ later added others, (config.resolveSchemas another).Runs start () later ∧
      others.Perm added ∧ (added.map Prod.fst).Nodup ∧
      after.document = putSchemas start.document added ∧
      later.document = putSchemas start.document others := by
  have begun : ∃ added, config.Growing registry start added start :=
    ⟨[], .init self.indexed known⟩
  obtain ⟨added, growing⟩ := resolveLoop_preserves
    (fun _ inside _ _ => growing_addMessageSchema self spares mirrors inside) begun runs
  have done := resolveSchemas_runs mirrors.indexed (mirrors.known self.indexed known) runs
  have enough := growing.suffices_of_done done self spares
  have turn (message : Message) (inside : message ∈ another.fileMessages) {before : Workspace}
      (held : ∃ added, config.Growing registry start added before) :
      ∃ between, (config.addMessageSchema another message).Runs before () between ∧
        ∃ added, config.Growing registry start added between := by
    obtain ⟨more, growing⟩ := held
    obtain ⟨between, runs⟩ := growing.exists_turn enough mirrors_too inside
    exact ⟨between, runs,
      growing_addMessageSchema self spares mirrors_too inside ⟨more, growing⟩ runs⟩
  obtain ⟨later, reruns⟩ : ∃ later, (config.resolveSchemas another).Runs start () later :=
    exists_runs_resolveLoop turn _ begun
  obtain ⟨others, regrowing⟩ := resolveLoop_preserves
    (fun _ inside _ _ => growing_addMessageSchema self spares mirrors_too inside) begun reruns
  have redone :=
    resolveSchemas_runs mirrors_too.indexed (mirrors_too.known self.indexed known) reruns
  refine ⟨later, added, others, reruns, ?_, growing.distinct, growing.document, regrowing.document⟩
  refine (List.perm_ext_iff_of_nodup (List.Nodup.of_map _ regrowing.distinct)
    (List.Nodup.of_map _ growing.distinct)).mpr fun entry => ?_
  rw [regrowing.mem_added redone self spares, growing.mem_added done self spares]

end Config

end ServiceDoc
