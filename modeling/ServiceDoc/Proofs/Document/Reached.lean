import ServiceDoc.Proofs.Document.Resolve

/-!
# Reached messages

Starting from names, a message is reached if it has one of them, or if a field of an ordinary
message that is reached holds it. Among several definitions of one full name, one is chosen. If
schema names tell messages apart, the name of a message stands for it.
-/

namespace ServiceDoc

namespace Message

/-- A message whose component schema follows from its fields. -/
def IsOrdinary (message : Message) : Prop :=
  message.fullName ≠ WellKnown.valueMessage ∧ message.fullName ≠ WellKnown.anyMessage ∧
    message.fullName ≠ WellKnown.statusMessage

end Message

/-- What the schema names of all messages depend on, with the messages for any message and for
errors. -/
def Registry.identities (registry : Registry) : List MessageIdentity :=
  anyIdentity :: statusIdentity :: registry.fileMessages.map Message.identity

namespace Config

/-- Messages with different full names have different schema names. -/
def NamesApart (config : Config) (registry : Registry) : Prop :=
  ∀ first ∈ registry.identities, ∀ second ∈ registry.identities,
    config.schemaName first = config.schemaName second → first.fullName = second.fullName

instance (config : Config) (registry : Registry) : Decidable (config.NamesApart registry) :=
  inferInstanceAs (Decidable (∀ first ∈ registry.identities, ∀ second ∈ registry.identities,
    config.schemaName first = config.schemaName second → first.fullName = second.fullName))

/-- One definition is chosen of every message that fields can hold, under the schema name that the
registry gives it. -/
structure Chooses (config : Config) (registry : Registry) (chosen : List Message) : Prop where
  among : ∀ message ∈ chosen, message ∈ registry.fileMessages
  /-- No other definition of the same full name is chosen. -/
  distinct : (chosen.map Message.fullName).Nodup
  /-- Every message that fields can hold is chosen. -/
  indexed : ∀ entry ∈ registry.messages, ∃ message ∈ chosen,
    message.fullName = entry.2.fullName ∧ config.messageName message = config.messageName entry.2

/-- A message is reached from names. -/
inductive Reached (config : Config) (registry : Registry) (chosen : List Message)
    (roots : List String) : Message → Prop where
  /-- A message of one of the names. -/
  | root {message : Message} (among : message ∈ chosen)
      (named : config.messageName message ∈ roots) : Reached config registry chosen roots message
  /-- A message that a field of an ordinary message refers to. -/
  | field {source message target : Message} {field : MessageField}
      (reached : Reached config registry chosen roots source) (ordinary : source.IsOrdinary)
      (inside : field ∈ source.fields) (found : registry.target? field = some target)
      (among : message ∈ chosen) (same : message.fullName = target.fullName) :
      Reached config registry chosen roots message

/-- A schema is that of a message. -/
def IsSchemaOf (config : Config) (registry : Registry) (message : Message) (schema : Element) :
    Prop :=
  if message.fullName = WellKnown.valueMessage then schema = WellKnown.valueSchema
  else if message.fullName = WellKnown.anyMessage then schema = WellKnown.anySchema
  else if message.fullName = WellKnown.statusMessage then
    schema = WellKnown.statusSchema (config.schemaName anyIdentity)
  else (config.messageSchema registry message).Gives schema

/-- The names that component schemas are to have: those of reached messages, that of any message if
an error is among them, and both if operations describe the default error response. -/
def Names (config : Config) (reached : Message → Prop) (defaulted : Prop) (name : String) : Prop :=
  (∃ message, reached message ∧ config.messageName message = name) ∨
    (name = config.schemaName anyIdentity ∧
      ((∃ message, reached message ∧ message.fullName = WellKnown.statusMessage) ∨ defaulted)) ∨
    (name = config.schemaName statusIdentity ∧ defaulted)

/-- Component schemas are exactly those of reached messages and those that come with them, each
under its name. -/
structure Describes (config : Config) (registry : Registry) (reached : Message → Prop)
    (defaulted : Prop) (schemas : Entries Element) : Prop where
  distinct : schemas.keys.Nodup
  keys : ∀ key, key ∈ schemas.keys ↔
    ∃ name, key = .string name ∧ config.Names reached defaulted name
  /-- Under the name of a message stands its schema. -/
  own : ∀ message, reached message → ∃ schema,
    schemas.get? (.string (config.messageName message)) = some schema ∧
      config.IsSchemaOf registry message schema
  /-- With an error, or the default error response, comes the schema of any message. -/
  any : (∃ message, reached message ∧ message.fullName = WellKnown.statusMessage) ∨ defaulted →
    schemas.get? (.string (config.schemaName anyIdentity)) = some WellKnown.anySchema
  /-- With the default error response comes the schema of an error. -/
  status : defaulted → schemas.get? (.string (config.schemaName statusIdentity)) =
    some (WellKnown.statusSchema (config.schemaName anyIdentity))

variable {config : Config} {registry : Registry} {chosen more : List Message}
  {roots : List String} {message other : Message}

theorem Names.imp {reached more : Message → Prop} {defaulted : Prop} {name : String}
    (wider : ∀ message, reached message → more message)
    (names : config.Names reached defaulted name) : config.Names more defaulted name := by
  rcases names with ⟨message, inside, named⟩ | ⟨same, ⟨message, inside, status⟩ | default⟩ | given
  · exact .inl ⟨message, wider message inside, named⟩
  · exact .inr (.inl ⟨same, .inl ⟨message, wider message inside, status⟩⟩)
  · exact .inr (.inl ⟨same, .inr default⟩)
  · exact .inr (.inr given)

theorem Reached.among (reached : config.Reached registry chosen roots message) :
    message ∈ chosen := by
  cases reached with
  | root among => exact among
  | field _ _ _ _ among => exact among

/-- With more definitions chosen, what was reached is reached. -/
theorem Reached.mono (wider : ∀ message ∈ chosen, message ∈ more)
    (reached : config.Reached registry chosen roots message) :
    config.Reached registry more roots message := by
  induction reached with
  | root among named => exact .root (wider _ among) named
  | field _ ordinary inside found among same ih =>
      exact .field ih ordinary inside found (wider _ among) same

/-- A chosen definition is told by its full name. -/
theorem Chooses.eq_of_fullName (chooses : config.Chooses registry chosen)
    (first : message ∈ chosen) (second : other ∈ chosen)
    (same : message.fullName = other.fullName) : message = other :=
  List.inj_on_of_nodup_map chooses.distinct first second same

/-- If the full names of all messages differ, every message is chosen. -/
theorem Chooses.perm (chooses : config.Chooses registry chosen) (indexed : registry.Indexed)
    (distinct : (registry.fileMessages.map Message.fullName).Nodup) :
    chosen.Perm registry.fileMessages := by
  refine (List.perm_ext_iff_of_nodup (List.Nodup.of_map _ chooses.distinct)
    (List.Nodup.of_map _ distinct)).mpr fun message => ⟨chooses.among message, fun inside => ?_⟩
  obtain ⟨entry, member, named⟩ := indexed.complete message inside
  obtain ⟨found, among, same, -⟩ := chooses.indexed entry member
  have again : found.fullName = message.fullName :=
    same.trans ((indexed.named entry member).trans named)
  exact List.inj_on_of_nodup_map distinct (chooses.among found among) inside again ▸ among

/-! ## Names of messages -/

theorem identity_mem (inside : message ∈ registry.fileMessages) :
    message.identity ∈ registry.identities :=
  .tail _ (.tail _ (List.mem_map_of_mem inside))

/-- Messages of one schema name have one full name. -/
theorem NamesApart.fullName_eq (apart : config.NamesApart registry)
    (first : message ∈ registry.fileMessages) (second : other ∈ registry.fileMessages)
    (same : config.messageName message = config.messageName other) :
    message.fullName = other.fullName :=
  apart _ (identity_mem first) _ (identity_mem second) same

/-- The schema name of any message stands for no other message. -/
theorem NamesApart.any (apart : config.NamesApart registry)
    (inside : message ∈ registry.fileMessages)
    (same : config.messageName message = config.schemaName anyIdentity) :
    message.fullName = WellKnown.anyMessage :=
  apart _ (identity_mem inside) _ (.head _) same

/-- The schema name of an error stands for no other message. -/
theorem NamesApart.status (apart : config.NamesApart registry)
    (inside : message ∈ registry.fileMessages)
    (same : config.messageName message = config.schemaName statusIdentity) :
    message.fullName = WellKnown.statusMessage :=
  apart _ (identity_mem inside) _ (.tail _ (.head _)) same

theorem NamesApart.any_ne_status (apart : config.NamesApart registry) :
    config.schemaName anyIdentity ≠ config.schemaName statusIdentity := fun same =>
  absurd (apart _ (.head _) _ (.tail _ (.head _)) same) (by decide)

/-- A message of a file whose name is referred to has the name that the registry gives it. -/
theorem NamesApart.messageName_eq (apart : config.NamesApart registry)
    (indexed : registry.Indexed) (inside : message ∈ registry.fileMessages)
    (known : config.Knows registry (config.messageName message)) {entry : String × Message}
    (member : entry ∈ registry.messages) (same : entry.2.fullName = message.fullName) :
    config.messageName entry.2 = config.messageName message := by
  obtain ⟨found, among, named⟩ := known
  have full : found.2.fullName = message.fullName :=
    apart.fullName_eq (indexed.defined found among) inside named
  have key : found.1 = entry.1 := by
    rw [← indexed.named found among, ← indexed.named entry member, full, same]
  have found_eq : found = entry := List.inj_on_of_nodup_map indexed.distinct among member key
  rw [← found_eq, named]

end Config

end ServiceDoc
