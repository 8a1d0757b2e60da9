import ServiceDoc.Proofs.Document.Dangling
import ServiceDoc.Proofs.Document.Reached

/-!
# Component schemas of a finished document

While references are resolved, the messages whose schemas were made are messages that are reached,
every name that is referred to comes from the operations or from a field of one of them, and the
component schemas are theirs. In the end every name that is referred to is done, so that the
messages that were made are all that are reached.
-/

namespace ServiceDoc

open Build Workspace

namespace Config

variable {config : Config} {registry : Registry} {roots : List String} {defaulted : Prop}
  {made : List Message} {work between after : Workspace} {message : Message} {schema : Element}

/-- The component schemas stand under the names that are done, in the order in which they were
added, and none was added twice. -/
structure Stores (work : Workspace) : Prop where
  /-- The names that are done are the keys. -/
  keys : work.schemas.keys = work.finished.reverse.map Scalar.string
  distinct : work.finished.Nodup

/-- Some messages were made from the names that the operations referred to: each of them is reached,
all references of theirs are noted and no others, and the component schemas are theirs and those
that came with them. -/
structure Making (config : Config) (registry : Registry) (roots : List String) (defaulted : Prop)
    (made : List Message) (work : Workspace) : Prop where
  /-- References are to messages of the registry. -/
  known : Known config registry work
  /-- The component schemas are those that are done. -/
  stores : Stores work
  /-- A file has each message that was made. -/
  among : ∀ message ∈ made, message ∈ registry.fileMessages
  /-- No two messages were made under one name. -/
  distinct : (made.map config.messageName).Nodup
  referred : ∀ message ∈ made, config.messageName message ∈ work.required
  reached : ∀ message ∈ made, config.Reached registry made roots message
  /-- What the operations referred to is noted. -/
  rooted : ∀ name ∈ roots, name ∈ work.required
  /-- What ordinary messages that were made refer to is noted. -/
  closed : ∀ message ∈ made, message.IsOrdinary →
    ∀ name ∈ config.edgeNames registry message, name ∈ work.required
  justified : ∀ name ∈ work.required, name ∈ roots ∨
    ∃ message ∈ made, message.IsOrdinary ∧ name ∈ config.edgeNames registry message
  /-- The names of what was made are done, and those that come with them. -/
  finished : ∀ name, name ∈ work.finished ↔ config.Names (· ∈ made) defaulted name
  /-- Under the name of a message stands its schema. -/
  own : ∀ message ∈ made, ∃ schema,
    work.schemas.get? (.string (config.messageName message)) = some schema ∧
      config.IsSchemaOf registry message schema
  /-- Under the name of any message stands its schema. -/
  any : config.schemaName anyIdentity ∈ work.finished →
    work.schemas.get? (.string (config.schemaName anyIdentity)) = some WellKnown.anySchema
  /-- Under the name of an error stands the schema that came with the default error response. -/
  status : defaulted → work.schemas.get? (.string (config.schemaName statusIdentity)) =
    some (WellKnown.statusSchema (config.schemaName anyIdentity))

/-! ## Adding schemas -/

/-- A schema of a name that is not done is added behind the others. -/
theorem Stores.finish (stores : Stores work) (name : String) (schema : Element) :
    Stores (work.finish name schema) := by
  by_cases done : name ∈ work.finished
  · rw [finish_of_mem done]
    exact stores
  · have fresh : Scalar.string name ∉ work.schemas.keys := by
      rw [stores.keys]
      simpa using done
    refine ⟨?_, ?_⟩
    · rw [schemas_finish done, Entries.keys_put, if_neg fresh, stores.keys, finish_of_notMem done]
      simp
    · rw [finish_of_notMem done]
      exact List.nodup_cons.mpr ⟨done, stores.distinct⟩

theorem get?_finish_self {name : String} (fresh : name ∉ work.finished) :
    (work.finish name schema).schemas.get? (.string name) = some schema := by
  rw [schemas_finish fresh]
  exact Entries.get?_put_self _ _ _

/-- The schemas of other names stay. -/
theorem get?_finish_of_ne {name other : String} (differ : other ≠ name) :
    (work.finish name schema).schemas.get? (.string other) = work.schemas.get? (.string other) := by
  by_cases done : name ∈ work.finished
  · rw [finish_of_mem done]
  · rw [schemas_finish done]
    exact Entries.get?_put_of_ne _ _ fun same => differ (Scalar.string.inj same)

/-- The schemas of names that are done stay. -/
theorem get?_finish_of_mem {name other : String} (done : other ∈ work.finished) :
    (work.finish name schema).schemas.get? (.string other) = work.schemas.get? (.string other) := by
  by_cases same : other = name
  · rw [finish_of_mem (same ▸ done)]
  · exact get?_finish_of_ne same

/-! ## Making a schema -/

theorem isOrdinary_of_specialSchema? (unknown : config.specialSchema? message = none) :
    message.IsOrdinary := by
  unfold specialSchema? at unknown
  refine ⟨fun value => ?_, fun any => ?_, fun status => ?_⟩
  · rw [value, if_pos rfl] at unknown
    contradiction
  · rw [any, if_neg (by decide), if_pos rfl] at unknown
    contradiction
  · rw [status, if_neg (by decide), if_neg (by decide), if_pos rfl] at unknown
    contradiction

theorem not_isOrdinary_of_specialSchema? (known : config.specialSchema? message = some schema) :
    ¬message.IsOrdinary := by
  rintro ⟨value, any, status⟩
  rw [specialSchema?, if_neg value, if_neg any, if_neg status] at known
  contradiction

theorem isSchemaOf_of_specialSchema? (known : config.specialSchema? message = some schema) :
    config.IsSchemaOf registry message schema := by
  unfold specialSchema? at known
  unfold IsSchemaOf
  split at known
  next value => rw [if_pos value, Option.some.inj known]
  next value =>
    rw [if_neg value]
    split at known
    next any => rw [if_pos any, Option.some.inj known]
    next any =>
      rw [if_neg any]
      split at known
      next status => rw [if_pos status, Option.some.inj known]
      next => contradiction

theorem isSchemaOf_any (any : message.fullName = WellKnown.anyMessage)
    (own : config.IsSchemaOf registry message schema) : schema = WellKnown.anySchema := by
  rw [IsSchemaOf, if_neg (by rw [any]; decide), if_pos any] at own
  exact own

/-- What making the schema of a message does: it notes the references of an ordinary message, and
brings the schema of any message with an error. -/
structure Made (config : Config) (registry : Registry) (message : Message) (work : Workspace)
    (schema : Element) (after : Workspace) : Prop where
  /-- The schema is that of the message. -/
  own : config.IsSchemaOf registry message schema
  /-- The references of an ordinary message are noted. -/
  required : ∀ name, name ∈ after.required ↔ name ∈ work.required ∨
    (message.IsOrdinary ∧ name ∈ config.edgeNames registry message)
  /-- With an error, the schema of any message is done. -/
  finished : ∀ name, name ∈ after.finished ↔ name ∈ work.finished ∨
    (name = config.schemaName anyIdentity ∧ message.fullName = WellKnown.statusMessage)
  kept : ∀ name ∈ work.finished,
    after.schemas.get? (.string name) = work.schemas.get? (.string name)
  /-- References are to messages of the registry. -/
  known : Known config registry work → Known config registry after
  /-- The component schemas are those that are done. -/
  stores : Stores work → Stores after
  /-- What was brought is the schema of any message. -/
  any : config.schemaName anyIdentity ∉ work.finished →
    config.schemaName anyIdentity ∈ after.finished →
      after.schemas.get? (.string (config.schemaName anyIdentity)) = some WellKnown.anySchema

theorem made_of_special (known : config.specialSchema? message = some schema) :
    config.Made registry message work schema (config.prepare message work) := by
  have special := not_isOrdinary_of_specialSchema? known
  by_cases status : message.fullName = WellKnown.statusMessage
  · have same : config.prepare message work =
        work.finish (config.schemaName anyIdentity) WellKnown.anySchema := if_pos status
    rw [same]
    exact {
      own := isSchemaOf_of_specialSchema? known
      required := fun name => by simp [special]
      finished := fun name => by rw [mem_finished_finish, or_comm]; simp [status]
      kept := fun name done => get?_finish_of_mem done
      known := known_finish
      stores := fun stores => stores.finish _ _
      any := fun fresh _ => get?_finish_self fresh }
  · have same : config.prepare message work = work := if_neg status
    rw [same]
    exact {
      own := isSchemaOf_of_specialSchema? known
      required := fun name => by simp [special]
      finished := fun name => by simp [status]
      kept := fun _ _ => rfl
      known := id
      stores := id
      any := fun fresh done => (fresh done).elim }

theorem made_of_ordinary (unknown : config.specialSchema? message = none)
    (runs : (config.messageSchema registry message).Runs work schema after) :
    config.Made registry message work schema after := by
  have ordinary := isOrdinary_of_specialSchema? unknown
  have mentions := messageSchema_mentions runs
  obtain ⟨refers, -⟩ := messageSchema_runs runs
  exact {
    own := by
      rw [IsSchemaOf, if_neg ordinary.1, if_neg ordinary.2.1, if_neg ordinary.2.2]
      exact messageSchema_steady message runs
    required := fun name => by rw [refers.required, mem_requireAll]; simp [ordinary]
    finished := fun name => by rw [refers.finished]; simp [ordinary.2.2]
    kept := fun name _ => by rw [mentions.schemas]
    known := fun known => known.later mentions
    stores := fun stores =>
      ⟨by rw [mentions.schemas, refers.finished, stores.keys], refers.finished ▸ stores.distinct⟩
    any := fun fresh done => (fresh (refers.finished ▸ done)).elim }

theorem Made.ofMakes (makes : config.Makes registry message work schema after) :
    config.Made registry message work schema after := by
  cases makes with
  | special known => exact made_of_special known
  | ordinary unknown runs => exact made_of_ordinary unknown runs

/-! ## One message -/

/-- The name of an ordinary or special message that is pending is not among what is brought with its
schema. -/
theorem Made.fresh (does : config.Made registry message work schema between)
    (apart : config.NamesApart registry) (inside : message ∈ registry.fileMessages)
    (pending : config.messageName message ∉ work.finished) :
    config.messageName message ∉ between.finished := by
  intro done
  rcases (does.finished _).mp done with done | ⟨any, status⟩
  · exact pending done
  · exact absurd ((apart.any inside any).symm.trans status) (by decide)

/-- Names of a field's target are those of the messages that the field reaches. -/
theorem exists_target {name : String} (member : name ∈ config.edgeNames registry message) :
    ∃ field ∈ message.fields, ∃ target, registry.target? field = some target ∧
      config.messageName target = name := by
  obtain ⟨field, inside, member⟩ := List.mem_flatMap.mp member
  obtain ⟨target, found, named⟩ := List.mem_map.mp member
  exact ⟨field, inside, target, Option.mem_toList.mp found, named⟩

/-- What is pending is reached. -/
theorem Making.reaches (making : config.Making registry roots defaulted made work)
    (indexed : registry.Indexed) (apart : config.NamesApart registry)
    (inside : message ∈ registry.fileMessages)
    (referred : config.messageName message ∈ work.required) :
    config.Reached registry (message :: made) roots message := by
  rcases making.justified _ referred with root | ⟨source, earlier, ordinary, member⟩
  · exact .root (.head _) root
  · obtain ⟨field, within, target, found, named⟩ := exists_target member
    obtain ⟨entry, among, rfl⟩ := Registry.mem_of_target? found
    exact .field ((making.reached source earlier).mono fun _ member => .tail _ member) ordinary
      within found (.head _) (apart.fullName_eq inside (indexed.defined entry among) named.symm)

/-- After the schema of a pending message was made and added, the message is among those that were
made. -/
theorem Making.add (making : config.Making registry roots defaulted made work)
    (indexed : registry.Indexed) (apart : config.NamesApart registry)
    (inside : message ∈ registry.fileMessages)
    (referred : config.messageName message ∈ work.required)
    (pending : config.messageName message ∉ work.finished)
    (does : config.Made registry message work schema between) :
    config.Making registry roots defaulted (message :: made)
      (between.finish (config.messageName message) schema) := by
  have fresh := does.fresh apart inside pending
  have new : ∀ other ∈ made, config.messageName other ∈ work.finished := fun other member =>
    (making.finished _).mpr (.inl ⟨other, member, rfl⟩)
  have kept (other : Message) (member : other ∈ made) :
      (between.finish (config.messageName message) schema).schemas.get?
        (.string (config.messageName other)) =
      work.schemas.get? (.string (config.messageName other)) := by
    rw [get?_finish_of_mem ((does.finished _).mpr (.inl (new other member)))]
    exact does.kept _ (new other member)
  refine {
    known := known_finish (does.known making.known)
    stores := (does.stores making.stores).finish _ _
    among := List.forall_mem_cons.mpr ⟨inside, making.among⟩
    distinct := List.nodup_cons.mpr ⟨fun member => ?distinct, making.distinct⟩
    referred := fun other member => ?referred
    reached := List.forall_mem_cons.mpr ⟨making.reaches indexed apart inside referred,
      fun other member => (making.reached other member).mono fun _ member => .tail _ member⟩
    rooted := fun name member => ?rooted
    closed := fun other member ordinary name edge => ?closed
    justified := fun name member => ?justified
    finished := fun name => ?finished
    own := List.forall_mem_cons.mpr ⟨⟨schema, get?_finish_self fresh, does.own⟩,
      fun other member => kept other member ▸ making.own other member⟩
    any := fun done => ?any
    status := fun default => ?status }
  case distinct =>
    obtain ⟨other, earlier, named⟩ := List.mem_map.mp member
    exact pending (named ▸ new other earlier)
  case referred =>
    rw [required_finish, does.required]
    rcases List.mem_cons.mp member with rfl | member
    · exact .inl referred
    · exact .inl (making.referred other member)
  case rooted =>
    rw [required_finish, does.required]
    exact .inl (making.rooted name member)
  case closed =>
    rw [required_finish, does.required]
    rcases List.mem_cons.mp member with rfl | member
    · exact .inr ⟨ordinary, edge⟩
    · exact .inl (making.closed other member ordinary name edge)
  case justified =>
    rw [required_finish, does.required] at member
    rcases member with member | ⟨ordinary, edge⟩
    · rcases making.justified name member with root | ⟨source, earlier, rest⟩
      · exact .inl root
      · exact .inr ⟨source, .tail _ earlier, rest⟩
    · exact .inr ⟨message, .head _, ordinary, edge⟩
  case finished =>
    rw [mem_finished_finish, does.finished, making.finished]
    simp only [Names, List.mem_cons, or_and_right, exists_or, exists_eq_left]
    grind
  case any =>
    -- The schema of any message was there, came with that of an error, or is the one just made.
    by_cases early : config.schemaName anyIdentity ∈ between.finished
    · rw [get?_finish_of_mem early]
      by_cases earlier : config.schemaName anyIdentity ∈ work.finished
      · exact (does.kept _ earlier).trans (making.any earlier)
      · exact does.any earlier early
    · have same := (mem_finished_finish.mp done).resolve_right early
      have any := apart.any inside same.symm
      rw [same, get?_finish_self fresh, isSchemaOf_any any does.own]
  case status =>
    have earlier : config.schemaName statusIdentity ∈ work.finished :=
      (making.finished _).mpr (.inr (.inr ⟨rfl, default⟩))
    rw [get?_finish_of_mem ((does.finished _).mpr (.inl earlier)), does.kept _ earlier]
    exact making.status default

/-- The turn of a message adds it to those that were made, or adds nothing. -/
theorem making_addMessageSchema (indexed : registry.Indexed) (apart : config.NamesApart registry)
    (inside : message ∈ registry.fileMessages)
    (making : ∃ made, config.Making registry roots defaulted made work)
    (runs : (config.addMessageSchema registry message).Runs work () after) :
    ∃ made, config.Making registry roots defaulted made after := by
  obtain ⟨made, making⟩ := making
  rcases addMessageSchema_cases runs with ⟨-, rfl⟩ | ⟨pending, schema, between, makes, rfl⟩
  · exact ⟨made, making⟩
  · obtain ⟨referred, undone⟩ := isPending_iff.mp pending
    exact ⟨message :: made, making.add indexed apart inside referred undone (.ofMakes makes)⟩

/-! ## The start -/

/-- After the operations, no message was made, and the component schemas are those of the default
error response or none. -/
theorem making_of_settled (apart : config.NamesApart registry)
    (known : Known config registry work) {operated : Prop}
    (settled : config.Settled operated work) (defaults : operated → config.HasDefaults work) :
    config.Making registry work.required (config.defaultResponse = true ∧ operated) [] work := by
  have differ := apart.any_ne_status
  have none_made {holds : Message → Prop} : ∀ message ∈ ([] : List Message), holds message :=
    fun _ member => (List.not_mem_nil member).elim
  have both : ∀ name, name ∈ config.defaultNames ↔
      name = config.schemaName statusIdentity ∨ name = config.schemaName anyIdentity := by
    simp [defaultNames]
  have start (stores : Stores work)
      (finished : ∀ name, name ∈ work.finished ↔
        (config.defaultResponse = true ∧ operated) ∧ name ∈ config.defaultNames)
      (schemas : config.defaultResponse = true ∧ operated → work.schemas = config.defaultSchemas) :
      config.Making registry work.required (config.defaultResponse = true ∧ operated) [] work := {
    known, stores
    among := none_made
    distinct := List.nodup_nil
    referred := none_made
    reached := none_made
    rooted := fun _ member => member
    closed := none_made
    justified := fun _ member => .inl member
    finished := fun name => by rw [finished, both]; simp [Names]; grind
    own := none_made
    any := fun done => by
      rw [schemas ((finished _).mp done).1]
      simp [defaultSchemas, Entries.get?_cons]
    status := fun default => by
      rw [schemas default]
      simp [defaultSchemas, Entries.get?_cons, differ] }
  rcases settled with ⟨finished, schemas⟩ | ⟨operated, default, finished, schemas⟩
  · have idle : ¬(config.defaultResponse = true ∧ operated) := by
      rintro ⟨default, operated⟩
      have status := defaults operated default _ (.head _)
      rw [finished] at status
      exact List.not_mem_nil status
    refine start ⟨?_, ?_⟩ (fun name => ?_) fun holds => (idle holds).elim
    · rw [finished, schemas]
      rfl
    · rw [finished]
      exact List.nodup_nil
    · simp [finished, idle]
  · refine start ⟨?_, ?_⟩ (fun name => ?_) fun _ => schemas
    · rw [finished, schemas]
      rfl
    · rw [finished]
      simp [defaultNames, Ne.symm differ]
    · simp [finished, default, operated]

/-! ## The end -/

/-- The messages that were made, and the indexed definitions of the others. -/
def chosen (registry : Registry) (made : List Message) : List Message :=
  made ++ (registry.messages.map Prod.snd).filter fun message =>
    message.fullName ∉ made.map Message.fullName

namespace Making

/-- What was made has the name that the registry gives it. -/
theorem messageName_eq (making : config.Making registry roots defaulted made work)
    (indexed : registry.Indexed) (apart : config.NamesApart registry) (earlier : message ∈ made)
    {entry : String × Message} (member : entry ∈ registry.messages)
    (same : entry.2.fullName = message.fullName) :
    config.messageName entry.2 = config.messageName message :=
  apart.messageName_eq indexed (making.among message earlier)
    (making.known.among _ (making.referred message earlier)) member same

/-- No two messages of one full name were made. -/
theorem nodup_fullName (making : config.Making registry roots defaulted made work)
    (indexed : registry.Indexed) (apart : config.NamesApart registry) :
    (made.map Message.fullName).Nodup := by
  refine (List.Nodup.of_map _ making.distinct).map_on fun first earlier second other same => ?_
  obtain ⟨entry, member, named⟩ := making.known.among _ (making.referred first earlier)
  have full : entry.2.fullName = first.fullName :=
    apart.fullName_eq (indexed.defined entry member) (making.among first earlier) named
  have again := making.messageName_eq indexed apart other member (full.trans same)
  exact List.inj_on_of_nodup_map making.distinct earlier other (named.symm.trans again)

/-- Together with the indexed definitions of the other messages, what was made is one definition of
every message. -/
theorem chooses (making : config.Making registry roots defaulted made work)
    (indexed : registry.Indexed) (apart : config.NamesApart registry) :
    config.Chooses registry (chosen registry made) where
  among message member := by
    rcases List.mem_append.mp member with member | member
    · exact making.among message member
    · obtain ⟨entry, inside, rfl⟩ := List.mem_map.mp (List.mem_filter.mp member).1
      exact indexed.defined entry inside
  distinct := by
    have named : (registry.messages.map Prod.snd).map Message.fullName =
        registry.messages.map Prod.fst := by
      rw [List.map_map]
      exact List.map_congr_left indexed.named
    rw [chosen, List.map_append]
    refine List.nodup_append.mpr ⟨making.nodup_fullName indexed apart, ?_, ?_⟩
    · exact (named ▸ indexed.distinct).sublist (List.filter_sublist.map _)
    · rintro name earlier other member rfl
      obtain ⟨message, inside, rfl⟩ := List.mem_map.mp member
      have other := of_decide_eq_true (List.mem_filter.mp inside).2
      exact other earlier
  indexed entry member := by
    by_cases earlier : entry.2.fullName ∈ made.map Message.fullName
    · obtain ⟨message, inside, same⟩ := List.mem_map.mp earlier
      exact ⟨message, List.mem_append_left _ inside, same,
        (making.messageName_eq indexed apart inside member same.symm).symm⟩
    · exact ⟨entry.2, List.mem_append_right _ (List.mem_filter.mpr
        ⟨List.mem_map_of_mem member, decide_eq_true earlier⟩), rfl, rfl⟩

/-- A chosen message whose name is done was made, or its name came with an error or the default
error response. -/
theorem made_of_finished (making : config.Making registry roots defaulted made work)
    (indexed : registry.Indexed) (apart : config.NamesApart registry)
    (inside : message ∈ chosen registry made)
    (done : config.messageName message ∈ work.finished) :
    message ∈ made ∨ (message.fullName = WellKnown.anyMessage ∧
        config.messageName message = config.schemaName anyIdentity) ∨
      (message.fullName = WellKnown.statusMessage ∧ defaulted ∧
        config.messageName message = config.schemaName statusIdentity) := by
  have chooses := making.chooses indexed apart
  have among := chooses.among message inside
  rcases (making.finished _).mp done with ⟨other, earlier, named⟩ | ⟨any, -⟩ | ⟨status, default⟩
  · have full := apart.fullName_eq (making.among other earlier) among named
    have same := chooses.eq_of_fullName (List.mem_append_left _ earlier) inside full
    exact .inl (same ▸ earlier)
  · exact .inr (.inl ⟨apart.any among any, any⟩)
  · exact .inr (.inr ⟨apart.status among status, default, status⟩)

variable (done : ∀ name ∈ work.required, name ∈ work.finished)

include done

/-- Every message that is reached is done in the end. -/
theorem finished_of_reached (making : config.Making registry roots defaulted made work)
    (indexed : registry.Indexed) (apart : config.NamesApart registry)
    (reached : config.Reached registry (chosen registry made) roots message) :
    config.messageName message ∈ work.finished := by
  induction reached with
  | root _ named => exact done _ (making.rooted _ named)
  | @field source message target field reached ordinary inside found among same ih =>
      have chooses := making.chooses indexed apart
      rcases making.made_of_finished indexed apart reached.among ih with
        earlier | ⟨any, -⟩ | ⟨status, -⟩
      · have edge : config.messageName target ∈ config.edgeNames registry source :=
          List.mem_flatMap.mpr ⟨field, inside, List.mem_map.mpr
            ⟨target, Option.mem_toList.mpr found, rfl⟩⟩
        obtain ⟨entry, member, rfl⟩ := Registry.mem_of_target? found
        obtain ⟨other, chosen, full, named⟩ := chooses.indexed entry member
        have again := chooses.eq_of_fullName chosen among (full.trans same.symm)
        rw [← again, named]
        exact done _ (making.closed source earlier ordinary _ edge)
      · exact absurd any ordinary.2.1
      · exact absurd status ordinary.2.2

/-- In the end the component schemas are those of the messages that are reached, and those that come
with them. -/
theorem describes (making : config.Making registry roots defaulted made work)
    (indexed : registry.Indexed) (apart : config.NamesApart registry) :
    config.Describes registry (config.Reached registry (chosen registry made) roots) defaulted
      work.schemas := by
  have reaches (message : Message) (earlier : message ∈ made) :
      config.Reached registry (chosen registry made) roots message :=
    (making.reached message earlier).mono fun _ member => List.mem_append_left _ member
  have names (name : String) : name ∈ work.finished ↔
      config.Names (config.Reached registry (chosen registry made) roots) defaulted name := by
    rw [making.finished]
    constructor
    · exact Names.imp reaches
    · rintro (⟨message, reached, rfl⟩ | ⟨rfl, brought⟩ | ⟨rfl, default⟩)
      · exact (making.finished _).mp
          (making.finished_of_reached done indexed apart reached)
      · refine .inr (.inl ⟨rfl, ?_⟩)
        rcases brought with ⟨message, reached, status⟩ | default
        case inr => exact .inr default
        rcases making.made_of_finished indexed apart reached.among
            (making.finished_of_reached done indexed apart reached) with
          earlier | ⟨any, -⟩ | ⟨-, default, -⟩
        · exact .inl ⟨message, earlier, status⟩
        · exact absurd (any.symm.trans status) (by decide)
        · exact .inr default
      · exact .inr (.inr ⟨rfl, default⟩)
  refine ⟨?distinct, fun key => ?keys, fun message reached => ?own, fun brought => ?any,
    making.status⟩
  case distinct =>
    rw [making.stores.keys]
    exact (List.nodup_reverse.mpr making.stores.distinct).map fun _ _ => Scalar.string.inj
  case keys =>
    rw [making.stores.keys, List.mem_map]
    simp only [List.mem_reverse, names, eq_comm, and_comm]
  case own =>
    rcases making.made_of_finished indexed apart reached.among
        (making.finished_of_reached done indexed apart reached) with
      earlier | ⟨any, named⟩ | ⟨status, default, named⟩
    · exact making.own message earlier
    · refine ⟨_, named ▸ making.any (named ▸
        making.finished_of_reached done indexed apart reached), ?_⟩
      rw [IsSchemaOf, if_neg (by rw [any]; decide), if_pos any]
    · refine ⟨_, named ▸ making.status default, ?_⟩
      rw [IsSchemaOf, if_neg (by rw [status]; decide), if_neg (by rw [status]; decide),
        if_pos status]
  case any => exact making.any ((names _).mpr (.inr (.inl ⟨rfl, brought⟩)))

end Making

/-- What describes reached messages does so in any order. -/
theorem Describes.of_perm {reached : Message → Prop} {schemas others : Entries Element}
    (describes : config.Describes registry reached defaulted schemas)
    (moved : others.Perm schemas) : config.Describes registry reached defaulted others := by
  have keys : others.keys.Perm schemas.keys := moved.map Prod.fst
  have found (key : Scalar) : others.get? key = schemas.get? key :=
    Entries.get?_of_perm moved describes.distinct key
  exact {
    distinct := keys.nodup_iff.mpr describes.distinct
    keys := fun key => keys.mem_iff.trans (describes.keys key)
    own := fun message reached => by
      rw [found]
      exact describes.own message reached
    any := fun brought => by
      rw [found]
      exact describes.any brought
    status := fun default => by
      rw [found]
      exact describes.status default }

/-- The component schemas of a document that was built are exactly those of the messages that are
reached from what the operations refer to, and those that come with them: an error brings the schema
of any message, and the default error response of an operation brings both. -/
theorem components_describe_reached {config : Config} {generated : List String}
    {definitions : List FileDefinition} {files : List SourceFile} {document : Element}
    (apart : config.NamesApart (.ofFiles generated definitions))
    (plain : ∀ file ∈ files, Unannotated (file.payload? .document))
    (built : (config.buildDocument (.ofFiles generated definitions) files none).outcome =
      .ok document) :
    ∃ operated chosen,
      (files.forM (config.addFile (.ofFiles generated definitions))).Runs
        { document := initialDocument config none } () operated ∧
      config.Chooses (.ofFiles generated definitions) chosen ∧
      config.Describes (.ofFiles generated definitions)
        (config.Reached (.ofFiles generated definitions) chosen operated.required)
        (config.defaultResponse = true ∧
          ∃ file ∈ files, config.Operates (.ofFiles generated definitions) file)
        document.componentSchemas := by
  have indexed := Registry.indexed_ofFiles generated definitions
  obtain ⟨operated, resolved, operations, resolves, tidies⟩ := buildDocument_runs built
  have alone : False → ∀ file ∈ files, file.Plain := False.elim
  obtain ⟨keeps, defaults⟩ := addFiles_runs plain alone operations
  have known := keeps.known (known_initialDocument _)
  have settled := keeps.settled apart.any_ne_status (.inl ⟨rfl, rfl⟩)
  have start := making_of_settled apart known settled defaults
  obtain ⟨made, making⟩ := resolveLoop_preserves
    (fun message inside _ _ => making_addMessageSchema indexed apart inside) ⟨[], start⟩ resolves
  have done := resolveSchemas_runs indexed known resolves
  exact ⟨operated, chosen _ made, operations, making.chooses indexed apart,
    (making.describes done indexed apart).of_perm tidies.schemas⟩

/-- The component schemas of the library are those of its messages, which hold each other, and those
of the default error response. -/
theorem library_components_describe_reached : ∃ document operated chosen,
    (libraryConfig.buildDocument libraryRegistry libraryRegistry.files none).outcome =
      .ok document ∧
    (libraryRegistry.files.forM (libraryConfig.addFile libraryRegistry)).Runs
      { document := initialDocument libraryConfig none } () operated ∧
    libraryConfig.Chooses libraryRegistry chosen ∧
    libraryConfig.Describes libraryRegistry
      (libraryConfig.Reached libraryRegistry chosen operated.required)
      (libraryConfig.defaultResponse = true ∧
        ∃ file ∈ libraryRegistry.files, libraryConfig.Operates libraryRegistry file)
      document.componentSchemas := by
  have apart : libraryConfig.NamesApart libraryRegistry := by decide +kernel
  have plain : ∀ file ∈ libraryRegistry.files, Unannotated (file.payload? .document) := by
    decide +kernel
  have ends : (libraryConfig.buildDocument libraryRegistry libraryRegistry.files
      none).outcome.isOk = true := by decide +kernel
  cases built : (libraryConfig.buildDocument libraryRegistry libraryRegistry.files
      none).outcome with
  | error failure =>
      rw [built] at ends
      exact absurd ends Bool.false_ne_true
  | ok document =>
      obtain ⟨operated, chosen, described⟩ := components_describe_reached apart plain built
      exact ⟨document, operated, chosen, rfl, described⟩

end Config

end ServiceDoc
