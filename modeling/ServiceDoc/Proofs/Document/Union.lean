import ServiceDoc.Proofs.Document.Exact
import ServiceDoc.Proofs.Document.Settle
import ServiceDoc.Proofs.Operation.Fixed

/-!
# The document of several files

The document of several files is put together from those of each file alone: it has the operations
and the tags of each, and since what is reached from the names that all refer to is reached from
those of some, it has the component schemas of each and no other.
-/

namespace ServiceDoc

open Build Workspace

/-! ## Effects of several steps -/

namespace Effect

/-- Effects after each other. -/
def all (effects : List Effect) : Effect := effects.foldr andThen {}

@[simp] theorem all_nil : all [] = {} := rfl

@[simp] theorem all_cons (effect : Effect) (effects : List Effect) :
    all (effect :: effects) = effect.andThen (all effects) := rfl

@[simp] theorem names_andThen (first second : Effect) :
    (first.andThen second).names = first.names ++ second.names := rfl

@[simp] theorem tags_andThen (first second : Effect) :
    (first.andThen second).tags = first.tags ++ second.tags := rfl

@[simp] theorem slots_andThen (first second : Effect) (path : Scalar) (verb : String) :
    (first.andThen second).slots path verb =
      (second.slots path verb).or (first.slots path verb) := rfl

theorem names_all (effects : List Effect) : (all effects).names = effects.flatMap names := by
  induction effects with
  | nil => rfl
  | cons effect rest ih => rw [all_cons, names_andThen, ih, List.flatMap_cons]

theorem tags_all (effects : List Effect) : (all effects).tags = effects.flatMap tags := by
  induction effects with
  | nil => rfl
  | cons effect rest ih => rw [all_cons, tags_andThen, ih, List.flatMap_cons]

/-- Where no two of some effects put an operation, that of the first is as good as any. -/
theorem slots_all {effects : List Effect} {path : Scalar} {verb : String}
    (apart : effects.Pairwise fun first second =>
      first.slots path verb = none ∨ second.slots path verb = none) :
    (all effects).slots path verb = effects.findSome? (·.slots path verb) := by
  induction effects with
  | nil => rfl
  | cons effect rest ih =>
      obtain ⟨first, others⟩ := List.pairwise_cons.mp apart
      rw [all_cons, slots_andThen, ih others, List.findSome?_cons]
      cases held : effect.slots path verb with
      | none => rw [Option.or_none]
      | some operation =>
          have none : rest.findSome? (·.slots path verb) = none :=
            List.findSome?_eq_none_iff.mpr fun other member =>
              (first other member).resolve_left fun absent =>
                Option.some_ne_none operation (held.symm.trans absent)
          rw [none, Option.none_or]

theorem Acts.refl (work : Workspace) : ({} : Effect).Acts work work := acts_of_refers (.refl work)

/-- Noting names after noting others is noting all of them. -/
theorem Acts.trans_names {names others : List String} {work between after : Workspace}
    (first : ({ names } : Effect).Acts work between)
    (second : ({ names := others } : Effect).Acts between after) :
    ({ names := names ++ others } : Effect).Acts work after := first.trans second

end Effect

namespace Config

variable {config : Config} {registry : Registry} {work after : Workspace}

/-- An effect is that of adding a file, from every workspace. -/
def Brings (config : Config) (registry : Registry) (file : SourceFile) (effect : Effect) : Prop :=
  ∀ {work after}, (config.addFile registry file).Runs work () after → effect.Acts work after

/-- Adding files one after the other has the effect of each after the other. -/
theorem addFiles_acts {effect : SourceFile → Effect} {files : List SourceFile}
    (brings : ∀ file ∈ files, config.Brings registry file (effect file))
    (runs : (files.forM (config.addFile registry)).Runs work () after) :
    (Effect.all (files.map effect)).Acts work after := by
  induction files generalizing work with
  | nil =>
      obtain ⟨-, rfl⟩ := runs_pure.mp runs
      exact .refl _
  | cons file rest ih =>
      rw [List.forall_mem_cons] at brings
      obtain ⟨_, between, first, later⟩ := runs_bind.mp runs
      exact (brings.1 first).trans (ih brings.2 later)

theorem addMessageSchema_acts {message : Message}
    (runs : (config.addMessageSchema registry message).Runs work () after) :
    ∃ names, ({ names } : Effect).Acts work after := by
  rcases addMessageSchema_cases runs with ⟨-, rfl⟩ | ⟨-, schema, between, makes, rfl⟩
  · exact ⟨[], .refl _⟩
  · cases makes with
    | special =>
        unfold prepare
        split
        · exact ⟨[], (Effect.acts_finish _ _).trans (Effect.acts_finish _ _)⟩
        · exact ⟨[], Effect.acts_finish _ _⟩
    | ordinary _ made =>
        exact ⟨_, (Effect.acts_of_refers (messageSchema_runs made).1).trans
          (Effect.acts_finish _ _)⟩

/-- Resolving references notes names and does nothing to operations and tags. -/
theorem resolveSchemas_acts (runs : (config.resolveSchemas registry).Runs work () after) :
    ∃ names, ({ names } : Effect).Acts work after := by
  let Noted (later : Workspace) : Prop := ∃ names, ({ names } : Effect).Acts work later
  have kept : ∀ message ∈ registry.fileMessages, ∀ {before between}, Noted before →
      (config.addMessageSchema registry message).Runs before () between → Noted between := by
    rintro message - before between ⟨names, begun⟩ turn
    obtain ⟨others, ended⟩ := addMessageSchema_acts turn
    exact ⟨_, begun.trans_names ended⟩
  exact resolveLoop_preserves kept ⟨[], .refl work⟩ runs

/-! ## Reached from several names -/

/-- With more names to start from, what was reached is reached. -/
theorem Reached.imp {chosen : List Message} {roots more : List String} {message : Message}
    (wider : ∀ name ∈ roots, name ∈ more)
    (reached : config.Reached registry chosen roots message) :
    config.Reached registry chosen more message := by
  induction reached with
  | root among named => exact .root among (wider _ named)
  | field _ ordinary inside found among same ih => exact .field ih ordinary inside found among same

/-- What is reached from the names of several things is reached from those of one of them. -/
theorem reached_flatMap {α : Type} {chosen : List Message} {items : List α}
    {names : α → List String} {message : Message} :
    config.Reached registry chosen (items.flatMap names) message ↔
      ∃ item ∈ items, config.Reached registry chosen (names item) message := by
  constructor
  · intro reached
    induction reached with
    | root among named =>
        obtain ⟨item, inside, named⟩ := List.mem_flatMap.mp named
        exact ⟨item, inside, .root among named⟩
    | field _ ordinary inside found among same ih =>
        obtain ⟨item, member, reached⟩ := ih
        exact ⟨item, member, .field reached ordinary inside found among same⟩
  · rintro ⟨item, member, reached⟩
    exact reached.imp fun name inside => List.mem_flatMap.mpr ⟨item, member, inside⟩

/-- A schema stands under a name among those of reached messages and those that come with them. -/
def Stands (config : Config) (registry : Registry) (reached : Message → Prop) (defaulted : Prop)
    (name : String) (schema : Element) : Prop :=
  (∃ message, reached message ∧ config.messageName message = name ∧
      config.IsSchemaOf registry message schema) ∨
    (name = config.schemaName anyIdentity ∧ schema = WellKnown.anySchema ∧
      ((∃ message, reached message ∧ message.fullName = WellKnown.statusMessage) ∨ defaulted)) ∨
    (name = config.schemaName statusIdentity ∧
      schema = WellKnown.statusSchema (config.schemaName anyIdentity) ∧ defaulted)

/-- What stands among the schemas of messages that some thing reaches, stands among those of the
messages that one thing reaches. -/
theorem stands_exists {α : Type} {holds : α → Prop} {reached : α → Message → Prop}
    {defaulted : α → Prop} {name : String} {schema : Element} :
    config.Stands registry (fun message => ∃ item, holds item ∧ reached item message)
        (∃ item, holds item ∧ defaulted item) name schema ↔
      ∃ item, holds item ∧ config.Stands registry (reached item) (defaulted item) name schema := by
  unfold Stands
  constructor
  · rintro (⟨message, ⟨item, held, reaches⟩, rest⟩ | ⟨any, same, brought⟩ |
      ⟨status, same, item, held, default⟩)
    · exact ⟨item, held, .inl ⟨message, reaches, rest⟩⟩
    · rcases brought with ⟨message, ⟨item, held, reaches⟩, rest⟩ | ⟨item, held, default⟩
      · exact ⟨item, held, .inr (.inl ⟨any, same, .inl ⟨message, reaches, rest⟩⟩)⟩
      · exact ⟨item, held, .inr (.inl ⟨any, same, .inr default⟩)⟩
    · exact ⟨item, held, .inr (.inr ⟨status, same, default⟩)⟩
  · rintro ⟨item, held, ⟨message, reaches, rest⟩ | ⟨any, same, brought⟩ | ⟨status, same, default⟩⟩
    · exact .inl ⟨message, ⟨item, held, reaches⟩, rest⟩
    · rcases brought with ⟨message, reaches, rest⟩ | default
      · exact .inr (.inl ⟨any, same, .inl ⟨message, ⟨item, held, reaches⟩, rest⟩⟩)
      · exact .inr (.inl ⟨any, same, .inr ⟨item, held, default⟩⟩)
    · exact .inr (.inr ⟨status, same, item, held, default⟩)

/-- A message has one schema. -/
theorem IsSchemaOf.unique {message : Message} {schema other : Element}
    (first : config.IsSchemaOf registry message schema)
    (second : config.IsSchemaOf registry message other) : schema = other := by
  unfold IsSchemaOf at first second
  split at first
  next value => rw [if_pos value] at second; exact first.trans second.symm
  next value =>
    rw [if_neg value] at second
    split at first
    next any => rw [if_pos any] at second; exact first.trans second.symm
    next any =>
      rw [if_neg any] at second
      split at first
      next status => rw [if_pos status] at second; exact first.trans second.symm
      next status => rw [if_neg status] at second; exact first.unique second

/-- What describes reached messages has under every key what stands there. -/
theorem Describes.get?_iff {reached : Message → Prop} {defaulted : Prop}
    {schemas : Entries Element} (describes : config.Describes registry reached defaulted schemas)
    {key : Scalar} {schema : Element} : schemas.get? key = some schema ↔
      ∃ name, key = .string name ∧ config.Stands registry reached defaulted name schema := by
  constructor
  · intro found
    have member : key ∈ schemas.keys := List.mem_map_of_mem (Entries.mem_of_get? found)
    obtain ⟨name, rfl, ⟨message, reaches, rfl⟩ | ⟨rfl, brought⟩ | ⟨rfl, default⟩⟩ :=
      (describes.keys key).mp member
    · obtain ⟨own, stands, is_own⟩ := describes.own message reaches
      obtain rfl := Option.some.inj (stands.symm.trans found)
      exact ⟨_, rfl, .inl ⟨message, reaches, rfl, is_own⟩⟩
    · have same := Option.some.inj (found.symm.trans (describes.any brought))
      exact ⟨_, rfl, .inr (.inl ⟨rfl, same, brought⟩)⟩
    · have same := Option.some.inj (found.symm.trans (describes.status default))
      exact ⟨_, rfl, .inr (.inr ⟨rfl, same, default⟩)⟩
  · rintro ⟨name, rfl, ⟨message, reaches, rfl, is_own⟩ | ⟨rfl, rfl, brought⟩ | ⟨rfl, rfl, default⟩⟩
    · obtain ⟨own, stands, same⟩ := describes.own message reaches
      rw [stands, is_own.unique same]
    · exact describes.any brought
    · exact describes.status default

end Config

end ServiceDoc
