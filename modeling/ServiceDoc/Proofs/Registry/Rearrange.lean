import ServiceDoc.Proofs.Registry.Index
import Mathlib.Data.List.Induction

/-!
# Files in another order, among other files

What a registry knows of a type name depends neither on the order of its files nor on files that
define no type of this name, if no two types have one full name. The files to describe depend on
their own order alone.
-/

namespace ServiceDoc

/-! ## Indexes -/

/-- An index holds items under their keys, one for every key. -/
structure Index.Of {α : Type} (key : α → String) (items : List α) (index : Index α) : Prop where
  distinct : (index.map Prod.fst).Nodup
  /-- A name stands for an item with this key. -/
  held : ∀ entry ∈ index, key entry.2 = entry.1 ∧ entry.2 ∈ items
  complete : ∀ item ∈ items, key item ∈ index.map Prod.fst

namespace Index.Of

variable {α : Type} {key : α → String} {items others : List α} {index other : Index α}
  {name : String}

/-- Setting the keys of further items. -/
theorem foldl_put (holds : index.Of key items) (others : List α) :
    Index.Of key (items ++ others)
      (others.foldl (fun index item => index.put (key item) item) index) := by
  have old : ∀ entry ∈ index, key entry.2 = entry.1 ∧ entry.2 ∈ items ++ others :=
    fun entry member => (holds.held entry member).imp_right (List.mem_append_left others)
  obtain ⟨distinct, held⟩ := Index.foldl_put key holds.distinct old
    fun item member => ⟨rfl, List.mem_append_right items member⟩
  refine ⟨distinct, held, fun item member => (Index.mem_keys_foldl_put key).mpr ?_⟩
  rcases List.mem_append.mp member with old | new
  · exact .inl (holds.complete item old)
  · exact .inr (List.mem_map_of_mem new)

/-- Among different entries, what stands under a name is what is found. -/
theorem lookup_eq_some_iff (holds : index.Of key items) {item : α} :
    index.lookup name = some item ↔ (name, item) ∈ index := by
  constructor
  · exact mem_of_lookup
  · intro member
    cases found : index.lookup name with
    | none =>
        have missing := List.lookup_eq_none_iff.mp found _ member
        simp at missing
    | some other =>
        have stands : (name, other) ∈ index := mem_of_lookup found
        have same := List.inj_on_of_nodup_map holds.distinct member stands rfl
        rw [(Prod.mk.inj same).2]

/-- If one item has a name, it is found. -/
theorem lookup_iff (holds : index.Of key items)
    (alone : ∀ first ∈ items, ∀ second ∈ items, key first = name → key second = name →
      first = second) {item : α} :
    index.lookup name = some item ↔ item ∈ items ∧ key item = name := by
  rw [holds.lookup_eq_some_iff]
  constructor
  · intro member
    obtain ⟨named, inside⟩ := holds.held _ member
    exact ⟨inside, named⟩
  · rintro ⟨inside, rfl⟩
    obtain ⟨entry, member, named⟩ := List.mem_map.mp (holds.complete item inside)
    obtain ⟨own, known⟩ := holds.held entry member
    obtain rfl := alone entry.2 known item inside (own.trans named) rfl
    rw [own]
    exact member

/-- Two indexes say the same of a name that the same items have, of which there is one at most. -/
theorem lookup_eq (holds : index.Of key items) (retains : other.Of key others)
    (alone : ∀ first ∈ items, ∀ second ∈ items, key first = name → key second = name →
      first = second)
    (same : ∀ item, key item = name → (item ∈ others ↔ item ∈ items)) :
    other.lookup name = index.lookup name := by
  refine Option.ext fun item => ?_
  rw [holds.lookup_iff alone, retains.lookup_iff]
  · exact and_congr_left (same item)
  · intro first one second two named known
    exact alone first ((same first named).mp one) second ((same second known).mp two) named known

end Index.Of

/-! ## Files -/

/-- The messages that a file defines. -/
def FileDefinition.described (definition : FileDefinition) : List Message :=
  (SourceFile.ofDefinition [] 0 definition).messages

/-- The enumerations that a file defines. -/
def FileDefinition.describedEnums (definition : FileDefinition) : List Enumeration :=
  (SourceFile.ofDefinition [] 0 definition).enums

/-- The names of types that a file mentions: those of fields, of inputs and of outputs. -/
def SourceFile.typeNames (file : SourceFile) : List String :=
  (file.messages.flatMap fun message => message.fields.map (·.definition.typeName)) ++
    file.services.flatMap fun service => service.methods.flatMap fun method =>
      [method.definition.input, method.definition.output]

namespace Registry

/-- The enumerations of all files. -/
def fileEnums (registry : Registry) : List Enumeration := registry.files.flatMap SourceFile.enums

/-- The names of types that the files mention. -/
def typeNames (registry : Registry) : List String := registry.files.flatMap SourceFile.typeNames

variable {generated : List String} {definitions files others extra : List FileDefinition}

theorem ofFiles_concat (definitions : List FileDefinition) (definition : FileDefinition) :
    ofFiles generated (definitions ++ [definition]) =
      (ofFiles generated definitions).add definition :=
  List.foldl_concat ..

theorem generated_ofFiles : (ofFiles generated definitions).generated = generated := by
  induction definitions using List.reverseRecOn with
  | nil => rfl
  | append_singleton earlier definition ih =>
      rw [ofFiles_concat]
      exact ih

theorem fileMessages_ofFiles :
    (ofFiles generated definitions).fileMessages = definitions.flatMap (·.described) := by
  induction definitions using List.reverseRecOn with
  | nil => rfl
  | append_singleton earlier definition ih =>
      rw [ofFiles_concat, List.flatMap_append, ← ih]
      exact List.flatMap_append ..

theorem fileEnums_ofFiles :
    (ofFiles generated definitions).fileEnums = definitions.flatMap (·.describedEnums) := by
  induction definitions using List.reverseRecOn with
  | nil => rfl
  | append_singleton earlier definition ih =>
      rw [ofFiles_concat, List.flatMap_append, ← ih]
      exact List.flatMap_append ..

/-- The registry of files indexes their messages. -/
theorem messages_ofFiles : Index.Of Message.fullName (ofFiles generated definitions).fileMessages
    (ofFiles generated definitions).messages := by
  have indexed := indexed_ofFiles generated definitions
  refine ⟨indexed.distinct, fun entry member =>
    ⟨indexed.named entry member, indexed.defined entry member⟩, fun message inside => ?_⟩
  obtain ⟨entry, member, named⟩ := indexed.complete message inside
  exact named ▸ List.mem_map_of_mem member

/-- The registry of files indexes their enumerations. -/
theorem enums_ofFiles : Index.Of Enumeration.fullName (ofFiles generated definitions).fileEnums
    (ofFiles generated definitions).enums := by
  induction definitions using List.reverseRecOn with
  | nil =>
      exact ⟨List.nodup_nil, fun _ member => (List.not_mem_nil member).elim,
        fun _ member => (List.not_mem_nil member).elim⟩
  | append_singleton earlier definition ih =>
      have enums : (ofFiles generated (earlier ++ [definition])).fileEnums =
          (ofFiles generated earlier).fileEnums ++ definition.describedEnums := by
        rw [fileEnums_ofFiles, fileEnums_ofFiles, List.flatMap_append, List.flatMap_singleton]
      rw [enums, ofFiles_concat]
      exact ih.foldl_put definition.describedEnums

/-! ## The files to describe -/

/-- Whether a file is to be described. -/
def describes (generated : List String) (definition : FileDefinition) : Bool :=
  generated.contains definition.name

theorem generatedFiles_add (registry : Registry) (definition : FileDefinition) :
    (registry.add definition).generatedFiles = registry.generatedFiles ++
      if describes registry.generated definition then [SourceFile.ofDefinition registry.generated
        (2 * registry.generatedFiles.length) definition] else [] := by
  let file := SourceFile.ofDefinition registry.generated (registry.nextPosition definition.name)
    definition
  have files : (registry.add definition).files = registry.files ++ [file] := rfl
  have own : file.isGenerated = describes registry.generated definition := rfl
  unfold generatedFiles
  rw [files, List.filter_append, List.filter_singleton, own]
  refine congrArg (registry.files.filter SourceFile.isGenerated ++ ·) ?_
  cases described : describes registry.generated definition with
  | false => rfl
  | true =>
      have position : registry.nextPosition definition.name =
          2 * (registry.files.filter SourceFile.isGenerated).length := by
        rw [← List.countP_eq_length_filter]
        exact if_pos described
      change [file] = [_]
      rw [← position]

/-- The files to describe depend on their own order alone. -/
theorem generatedFiles_ofFiles : (ofFiles generated definitions).generatedFiles =
    (ofFiles generated (definitions.filter (describes generated))).generatedFiles := by
  induction definitions using List.reverseRecOn with
  | nil => rfl
  | append_singleton earlier definition ih =>
      rw [ofFiles_concat, generatedFiles_add, generated_ofFiles, List.filter_append,
        List.filter_singleton]
      cases described : describes generated definition with
      | false =>
          rw [if_neg Bool.false_ne_true, cond_false, List.append_nil, List.append_nil, ih]
      | true =>
          rw [if_pos rfl, cond_true, ofFiles_concat, generatedFiles_add, generated_ofFiles,
            if_pos described, ← ih]

/-! ## What is known of types -/

/-- A registry knows of the types that the files of another mention what that one knows. -/
structure Agrees (registry other : Registry) : Prop where
  messages : ∀ name ∈ registry.typeNames, other.message? name = registry.message? name
  enums : ∀ name ∈ registry.typeNames, other.enum? name = registry.enum? name

/-- No two types have one full name. -/
structure Unambiguous (registry : Registry) : Prop where
  messages : (registry.fileMessages.map Message.fullName).Nodup
  enums : (registry.fileEnums.map Enumeration.fullName).Nodup

/-- The files of a registry mention no type of others. -/
structure Ignores (registry others : Registry) : Prop where
  messages : ∀ message ∈ others.fileMessages,
    message.fullName ∉ registry.typeNames.map withoutDot
  enums : ∀ enum ∈ others.fileEnums, enum.fullName ∉ registry.typeNames.map withoutDot

theorem mem_fileMessages_of_perm (moved : others.Perm (files ++ extra)) {message : Message} :
    message ∈ (ofFiles generated others).fileMessages ↔
      message ∈ (ofFiles generated files).fileMessages ∨
        message ∈ (ofFiles generated extra).fileMessages := by
  rw [fileMessages_ofFiles, fileMessages_ofFiles, fileMessages_ofFiles, ← List.mem_append,
    ← List.flatMap_append]
  exact (moved.flatMap_right _).mem_iff

theorem mem_fileEnums_of_perm (moved : others.Perm (files ++ extra)) {enum : Enumeration} :
    enum ∈ (ofFiles generated others).fileEnums ↔
      enum ∈ (ofFiles generated files).fileEnums ∨ enum ∈ (ofFiles generated extra).fileEnums := by
  rw [fileEnums_ofFiles, fileEnums_ofFiles, fileEnums_ofFiles, ← List.mem_append,
    ← List.flatMap_append]
  exact (moved.flatMap_right _).mem_iff

/-- Files in another order, among files that define no type that they mention, know the same of the
types that they mention. -/
theorem agrees_ofFiles (moved : others.Perm (files ++ extra))
    (unambiguous : (ofFiles generated files).Unambiguous)
    (ignores : (ofFiles generated files).Ignores (ofFiles generated extra)) :
    (ofFiles generated files).Agrees (ofFiles generated others) := by
  refine ⟨fun name mentioned => ?_, fun name mentioned => ?_⟩
  · refine messages_ofFiles.lookup_eq messages_ofFiles (fun first one second two named known =>
      List.inj_on_of_nodup_map unambiguous.messages one two (named.trans known.symm))
      fun message named => ?_
    refine (mem_fileMessages_of_perm moved).trans (or_iff_left fun other => ?_)
    exact ignores.messages message other (named ▸ List.mem_map_of_mem mentioned)
  · refine enums_ofFiles.lookup_eq enums_ofFiles (fun first one second two named known =>
      List.inj_on_of_nodup_map unambiguous.enums one two (named.trans known.symm))
      fun enum named => ?_
    refine (mem_fileEnums_of_perm moved).trans (or_iff_left fun other => ?_)
    exact ignores.enums enum other (named ▸ List.mem_map_of_mem mentioned)

end Registry

end ServiceDoc
