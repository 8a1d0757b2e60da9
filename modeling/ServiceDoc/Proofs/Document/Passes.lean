import ServiceDoc.Proofs.Document.Resolve
import ServiceDoc.Proofs.Operation.Query
import Mathlib.Data.Finset.Card

/-!
# How many passes resolving takes

Every pass but the last brings a reference to a name that nothing referred to before. Such a name is
that of a message of the registry, so there are no more passes than such names and one. A pass that
brings no reference has found nothing left to do.

No pass fails if the comments hold no malformed annotation and the entries of maps have a field for
the value.
-/

namespace ServiceDoc

open Build Workspace

/-! ## Comments without malformed annotations -/

namespace Comment

/-- A comment holds no malformed annotation, and what it says under a key is a schema. -/
def IsSound (comment : Comment) (key : AnnotationKey) : Prop :=
  ∃ payload, comment.payload? key = .ok payload ∧
    ∀ entries ∈ payload, (Element.load .schema entries).outcome.isOk = true

instance (comment : Comment) (key : AnnotationKey) : Decidable (comment.IsSound key) :=
  match read : comment.payload? key with
  | .ok payload =>
    decidable_of_iff (∀ entries ∈ payload, (Element.load .schema entries).outcome.isOk = true)
      ⟨fun loads => ⟨payload, read, loads⟩, fun ⟨_, again, loads⟩ =>
        Except.ok.inj (read.symm.trans again) ▸ loads⟩
  | .error _ => .isFalse fun ⟨_, again, _⟩ => nomatch read.symm.trans again

variable {comment : Comment} {key : AnnotationKey}

theorem IsSound.isReadable (sound : comment.IsSound key) : comment.IsReadable := by
  obtain ⟨payload, read, -⟩ := sound
  unfold payload? annotations annotationsOf at read
  cases blocks : cut comment.raw.toList with
  | error error =>
      rw [blocks] at read
      cases read
  | ok parts =>
      unfold IsReadable description
      rw [blocks]
      exact ⟨_, rfl⟩

end Comment

namespace Registry

/-- The comments that component schemas take data from hold no malformed annotation. -/
structure IsSound (registry : Registry) : Prop where
  messages : ∀ message ∈ registry.fileMessages, message.comment.IsSound .schema
  fields : ∀ message ∈ registry.fileMessages, ∀ field ∈ message.fields,
    field.comment.IsSound .property
  values : ∀ entry ∈ registry.enums, ∀ value ∈ entry.2.values, value.comment.IsReadable

instance (registry : Registry) : Decidable registry.IsSound :=
  decidable_of_iff ((∀ message ∈ registry.fileMessages, message.comment.IsSound .schema) ∧
      (∀ message ∈ registry.fileMessages, ∀ field ∈ message.fields,
        field.comment.IsSound .property) ∧
      ∀ entry ∈ registry.enums, ∀ value ∈ entry.2.values, value.comment.IsReadable)
    ⟨fun sound => ⟨sound.1, sound.2.1, sound.2.2⟩,
      fun sound => ⟨sound.messages, sound.fields, sound.values⟩⟩

/-- The entries of maps have a field for the key and one for the value. -/
def HasPairs (registry : Registry) : Prop :=
  ∀ message ∈ registry.fileMessages, message.isMapEntry = true → 2 ≤ message.fields.length

instance (registry : Registry) : Decidable registry.HasPairs :=
  inferInstanceAs (Decidable (∀ message ∈ registry.fileMessages, _ → _))

variable {registry : Registry}

theorem IsSound.readable (sound : registry.IsSound) (indexed : registry.Indexed) :
    registry.Readable where
  fields entry member field inside :=
    (sound.fields entry.2 (indexed.defined entry member) field inside).isReadable
  values := sound.values

end Registry

/-! ## Schemas of messages are made -/

theorem annotateSchema_gives {place : String} {payload : Option (Entries Value)}
    (loads : ∀ entries ∈ payload, (Element.load .schema entries).outcome.isOk = true)
    (schema : Element) : ∃ annotated, (annotateSchema place payload schema).Gives annotated := by
  unfold annotateSchema
  cases payload with
  | none => exact ⟨schema, gives_pure schema⟩
  | some entries =>
      have loads := loads entries rfl
      cases loaded : (Element.load .schema entries).outcome with
      | error error =>
          rw [loaded] at loads
          exact (Bool.false_ne_true loads).elim
      | ok element => exact ⟨_, (gives_annotated loaded).bind (gives_pure _)⟩

theorem propertySchema_gives {field : MessageField} (sound : field.comment.IsSound .property)
    (schema : Element) : ∃ property, (propertySchema field schema).Gives property := by
  obtain ⟨description, described⟩ := sound.isReadable
  obtain ⟨payload, read, loads⟩ := sound
  have annotated : ∀ described, ∃ property,
      (annotateSchema field.fullName payload described).Gives property :=
    annotateSchema_gives loads
  unfold propertySchema
  suffices rest : ∃ property, Build.Gives _ property from
    ⟨rest.choose, (gives_comment read).bind ((gives_comment described).bind rest.choose_spec)⟩
  split
  · dsimp only
    split
    · exact annotated _
    · exact ⟨schema, gives_pure schema⟩
  · exact annotated _

namespace Config

variable {config : Config} {registry : Registry} {work between after : Workspace}
  {message : Message}

theorem schemaOfField_gives_of_pairs (config : Config) (readable : registry.Readable)
    (indexed : registry.Indexed) (pairs : registry.HasPairs) (field : MessageField) :
    ∃ schema, (config.schemaOfField registry field).Gives schema := by
  unfold schemaOfField
  cases map : registry.mapEntry? field with
  | none =>
      obtain ⟨schema, made⟩ := config.schemaOfValue_gives readable field
      exact ⟨_, made.bind (gives_pure _)⟩
  | some entry =>
      unfold Registry.mapEntry? at map
      split at map
      next =>
        obtain ⟨found, isEntry⟩ := Option.filter_eq_some_iff.mp map
        have member := Registry.mem_of_message? (Registry.message?_of_messageOf? found)
        have two := pairs entry (indexed.defined _ member) isEntry
        obtain ⟨schema, made⟩ := config.schemaOfValue_gives readable entry.fields[1]
        have value : entry.fields[1]? = some entry.fields[1] := List.getElem?_eq_getElem two
        dsimp only
        rw [value]
        exact ⟨_, made.bind (gives_pure _)⟩
      next => contradiction

/-- The schema of a message whose comments are sound is made, whatever was done before. -/
theorem messageSchema_gives (config : Config) (sound : registry.IsSound)
    (indexed : registry.Indexed) (pairs : registry.HasPairs)
    (member : message ∈ registry.fileMessages) :
    ∃ schema, (config.messageSchema registry message).Gives schema := by
  have property (field : MessageField) (inside : field ∈ message.fields)
      (properties : Properties) :
      ∃ extended, (config.addProperty registry properties field).Gives extended := by
    obtain ⟨schema, made⟩ :=
      config.schemaOfField_gives_of_pairs (sound.readable indexed) indexed pairs field
    cases schema with
    | none => exact ⟨_, made.bind (gives_pure _)⟩
    | some schema =>
        obtain ⟨property, given⟩ :=
          propertySchema_gives (sound.fields message member field inside) schema
        exact ⟨_, made.bind (given.bind (gives_pure _))⟩
  obtain ⟨properties, made⟩ := Gives.foldlM property {}
  obtain ⟨description, described⟩ := (sound.messages message member).isReadable
  obtain ⟨payload, read, loads⟩ := sound.messages message member
  obtain ⟨schema, annotated⟩ : ∃ schema,
      (annotateSchema message.fullName payload _).Gives schema := annotateSchema_gives loads _
  exact ⟨schema, made.bind ((gives_comment described).bind ((gives_comment read).bind annotated))⟩

theorem exists_runs_addMessageSchema (config : Config) (sound : registry.IsSound)
    (indexed : registry.Indexed) (pairs : registry.HasPairs)
    (member : message ∈ registry.fileMessages) (work : Workspace) :
    ∃ after, (config.addMessageSchema registry message).Runs work () after := by
  have added (name : String) (schema : Element) (before : Workspace) :
      ∃ after, (discard (addSchema name schema)).Runs before () after := by
    obtain ⟨done, after, runs⟩ := exists_runs_addSchema name schema before
    exact ⟨after, runs_discard.mpr ⟨done, runs⟩⟩
  unfold addMessageSchema
  simp only [runs_bind, runs_get]
  suffices rest : ∃ after, Build.Runs _ work () after from
    ⟨rest.choose, work, work, ⟨rfl, rfl⟩, rest.choose_spec⟩
  split
  · split
    · exact added _ _ _
    split
    · exact added _ _ _
    split
    · obtain ⟨between, first⟩ := added (config.schemaName anyIdentity) WellKnown.anySchema work
      obtain ⟨after, second⟩ := added (config.messageName message)
        (WellKnown.statusSchema (config.schemaName anyIdentity)) between
      exact ⟨after, runs_bind.mpr ⟨(), between, first, second⟩⟩
    · obtain ⟨schema, made⟩ := config.messageSchema_gives sound indexed pairs member
      obtain ⟨between, first⟩ := made work
      obtain ⟨after, second⟩ := added (config.messageName message) schema between
      exact ⟨after, runs_bind.mpr ⟨schema, between, first, second⟩⟩
  · exact ⟨work, runs_pure.mpr ⟨rfl, rfl⟩⟩

theorem exists_runs_resolvePass (config : Config) (sound : registry.IsSound)
    (indexed : registry.Indexed) (pairs : registry.HasPairs) (work : Workspace) :
    ∃ after, (config.resolvePass registry).Runs work () after := by
  have turn (message : Message) (member : message ∈ registry.fileMessages) (before : Workspace) :
      ∃ after, (config.addMessageSchema registry message).Runs before () after ∧ True := by
    obtain ⟨after, runs⟩ := config.exists_runs_addMessageSchema sound indexed pairs member before
    exact ⟨after, runs, trivial⟩
  obtain ⟨after, runs, -⟩ : ∃ after, (config.resolvePass registry).Runs work () after ∧ True :=
    exists_runs_forM (fun file among before _ => exists_runs_forM (fun message inside before _ =>
      turn message (List.mem_flatMap.mpr ⟨file, among, inside⟩) before) trivial) trivial
  exact ⟨after, runs⟩

/-! ## What a pass refers to -/

/-- The second workspace has references to more messages of the registry. -/
def AddsReferences (config : Config) (registry : Registry) (work after : Workspace) : Prop :=
  ∃ names, (∀ name ∈ names, config.Knows registry name) ∧
    after.required = requireAll work.required names

theorem AddsReferences.trans (first : config.AddsReferences registry work between)
    (second : config.AddsReferences registry between after) :
    config.AddsReferences registry work after := by
  obtain ⟨names, known, begun⟩ := first
  obtain ⟨others, others_known, ended⟩ := second
  refine ⟨names ++ others, List.forall_mem_append.mpr ⟨known, others_known⟩, ?_⟩
  rw [ended, begun, requireAll_append]

theorem addMessageSchema_addsReferences
    (runs : (config.addMessageSchema registry message).Runs work () after) :
    config.AddsReferences registry work after := by
  have unchanged {later : Workspace} (same : later.required = work.required) :
      config.AddsReferences registry work later :=
    ⟨[], fun _ member => (List.not_mem_nil member).elim, same⟩
  rcases addMessageSchema_cases runs with ⟨-, rfl⟩ | ⟨-, schema, between, makes, rfl⟩
  · exact unchanged rfl
  · cases makes with
    | special =>
        refine unchanged ?_
        rw [required_finish]
        unfold prepare
        split
        · exact required_finish
        · rfl
    | ordinary _ made =>
        obtain ⟨names, known, refers⟩ := messageSchema_mentions made
        exact ⟨names, known, required_finish.trans refers.required⟩

theorem resolvePass_addsReferences (runs : (config.resolvePass registry).Runs work () after) :
    config.AddsReferences registry work after :=
  resolvePass_preserves (fun _ _ _ _ begun turn =>
      begun.trans (addMessageSchema_addsReferences turn))
    ⟨[], fun _ member => (List.not_mem_nil member).elim, rfl⟩ runs

/-! ## Pass by pass -/

/-- Resolving ends behind the first pass that brings no new reference, which is the last of a number
of passes. -/
inductive Resolves (config : Config) (registry : Registry) :
    (passes : Nat) → Workspace → Workspace → Prop
  | last {work after : Workspace} (pass : (config.resolvePass registry).Runs work () after)
      (settled : after.required.length = work.required.length) :
      Resolves config registry 1 work after
  | more {passes : Nat} {work between after : Workspace}
      (pass : (config.resolvePass registry).Runs work () between)
      (grown : between.required.length ≠ work.required.length)
      (rest : Resolves config registry passes between after) :
      Resolves config registry (passes + 1) work after

/-- With fuel for all passes, the fuel does not matter. -/
theorem Resolves.runs {passes fuel : Nat} (resolves : config.Resolves registry passes work after)
    (enough : passes ≤ fuel) : (config.resolveLoop registry fuel).Runs work () after := by
  induction resolves generalizing fuel with
  | @last work after pass settled =>
      obtain ⟨fuel, rfl⟩ := Nat.exists_eq_succ_of_ne_zero (Nat.ne_zero_of_lt enough)
      unfold resolveLoop
      simp only [runs_bind, runs_get]
      refine ⟨work, work, ⟨rfl, rfl⟩, (), after, pass, after, after, ⟨rfl, rfl⟩, ?_⟩
      rw [if_neg (not_not_intro settled)]
      exact runs_pure.mpr ⟨rfl, rfl⟩
  | @more passes work between after pass grown _ ih =>
      obtain ⟨fuel, rfl⟩ := Nat.exists_eq_succ_of_ne_zero (Nat.ne_zero_of_lt enough)
      unfold resolveLoop
      simp only [runs_bind, runs_get]
      refine ⟨work, work, ⟨rfl, rfl⟩, (), between, pass, between, between, ⟨rfl, rfl⟩, ?_⟩
      rw [if_pos grown]
      exact ih (Nat.le_of_succ_le_succ enough)

/-- The names of the messages of a registry that are not referred to. -/
def unreferred (config : Config) (registry : Registry) (work : Workspace) : Finset String :=
  (registry.messages.map fun entry => config.messageName entry.2).toFinset \ work.required.toFinset

theorem mem_unreferred {name : String} : name ∈ config.unreferred registry work ↔
    config.Knows registry name ∧ name ∉ work.required := by
  unfold unreferred Knows
  rw [Finset.mem_sdiff, List.mem_toFinset, List.mem_toFinset, List.mem_map]

theorem card_unreferred_le (config : Config) (registry : Registry) (work : Workspace) :
    (config.unreferred registry work).card ≤ registry.messages.length :=
  calc (config.unreferred registry work).card
      ≤ (registry.messages.map fun entry => config.messageName entry.2).toFinset.card :=
        Finset.card_le_card Finset.sdiff_subset
    _ ≤ (registry.messages.map fun entry => config.messageName entry.2).length :=
        List.toFinset_card_le _
    _ = registry.messages.length := List.length_map _

/-- New references take from the names that are not referred to. -/
theorem AddsReferences.card_lt (adds : config.AddsReferences registry work after)
    (grown : after.required.length ≠ work.required.length) :
    (config.unreferred registry after).card < (config.unreferred registry work).card := by
  obtain ⟨names, known, noted⟩ := adds
  obtain ⟨name, inside, fresh⟩ : ∃ name ∈ names, name ∉ work.required := by
    by_contra! old
    rw [noted, requireAll_of_subset old] at grown
    exact grown rfl
  refine Finset.card_lt_card (Finset.ssubset_iff_of_subset ?_ |>.mpr ⟨name, ?_, ?_⟩)
  · intro other member
    rw [mem_unreferred] at member ⊢
    refine ⟨member.1, fun before => member.2 ?_⟩
    rw [noted, mem_requireAll]
    exact .inl before
  · exact mem_unreferred.mpr ⟨known name inside, fresh⟩
  · intro member
    refine (mem_unreferred.mp member).2 ?_
    rw [noted, mem_requireAll]
    exact .inr inside

/-- Resolving ends, and then nothing that is referred to is left to do. -/
theorem exists_resolves (config : Config) (sound : registry.IsSound) (indexed : registry.Indexed)
    (pairs : registry.HasPairs)
    (named : ∀ name ∈ work.required, ∃ message ∈ registry.fileMessages,
      config.messageName message = name) :
    ∃ passes after, config.Resolves registry passes work after ∧
      passes ≤ (config.unreferred registry work).card + 1 ∧
      ∀ name ∈ after.required, name ∈ after.finished := by
  induction left : (config.unreferred registry work).card using Nat.strong_induction_on
    generalizing work with
  | _ left ih =>
      obtain ⟨between, pass⟩ := config.exists_runs_resolvePass sound indexed pairs work
      have adds := resolvePass_addsReferences pass
      obtain ⟨grows, done⟩ := resolvePass_runs pass
      by_cases settled : between.required.length = work.required.length
      · refine ⟨1, between, .last pass settled, Nat.le_add_left 1 _, ?_⟩
        intro name member
        rw [← grows.required.eq_of_length settled.symm] at member
        obtain ⟨message, among, rfl⟩ := named name member
        exact done message among member
      · have fewer := adds.card_lt settled
        have later : ∀ name ∈ between.required, ∃ message ∈ registry.fileMessages,
            config.messageName message = name := by
          obtain ⟨names, known, noted⟩ := adds
          intro name member
          rw [noted, mem_requireAll] at member
          rcases member with old | new
          · exact named name old
          · obtain ⟨entry, among, rfl⟩ := known name new
            exact ⟨entry.2, indexed.defined entry among, rfl⟩
        obtain ⟨passes, after, rest, few, ended⟩ := ih _ (left ▸ fewer) later rfl
        refine ⟨passes + 1, after, .more pass settled rest, ?_, ended⟩
        omega

/-- From references to messages of the registry, resolving ends after at most one pass more than
there are names of messages that are not referred to, and then every name that is referred to is
done. -/
theorem resolves_within (config : Config) {generated : List String}
    {definitions : List FileDefinition} {work : Workspace}
    (sound : (Registry.ofFiles generated definitions).IsSound)
    (pairs : (Registry.ofFiles generated definitions).HasPairs)
    (named : ∀ name ∈ work.required,
      ∃ message ∈ (Registry.ofFiles generated definitions).fileMessages,
        config.messageName message = name) :
    ∃ passes after, config.Resolves (.ofFiles generated definitions) passes work after ∧
      passes ≤ (config.unreferred (.ofFiles generated definitions) work).card + 1 ∧
      (config.resolveSchemas (.ofFiles generated definitions)).Runs work () after ∧
      ∀ name ∈ after.required, name ∈ after.finished := by
  have indexed := Registry.indexed_ofFiles generated definitions
  obtain ⟨passes, after, resolves, few, done⟩ := config.exists_resolves sound indexed pairs named
  have room := config.card_unreferred_le (.ofFiles generated definitions) work
  exact ⟨passes, after, resolves, few, resolves.runs (by omega), done⟩

end Config

/-- The shelves of a library by their themes, defined behind what they hold. A comment says the
title of their schema. -/
def themesFile : FileDefinition where
  name := "themes.proto"
  package := "library"
  messages := [
    { name := "Book"
      fields := [{ name := "shelf", type := .message, typeName := ".library.Shelf" }] },
    { name := "Shelf"
      fields := [
        { name := "books", type := .message, typeName := ".library.Book", label := .repeated }] },
    { name := "Themes"
      fields := [
        { name := "shelves", type := .message, typeName := ".library.Themes.ShelvesEntry"
          label := .repeated }]
      messages := [
        { name := "ShelvesEntry"
          isMapEntry := true
          fields := [
            { name := "key", type := .string },
            { name := "value", type := .message, typeName := ".library.Shelf" }] }] }]
  locations := [
    { path := [4, 2], leading := " [#openapi-schema: \x7b\"title\": \"Themes\"\x7d]\n" }]

/-- The registry of the themes alone. -/
def themesRegistry : Registry := .ofFiles ["themes.proto"] [themesFile]

/-- From a reference to the themes, whose shelves and books are found one after the other, resolving
ends after at most four passes. -/
theorem Config.themes_resolves_within :
    let start : Workspace := { document := .empty .document, required := ["Themes"] }
    (libraryConfig.unreferred themesRegistry start).card = 3 ∧
      ∃ passes after, libraryConfig.Resolves themesRegistry passes start after ∧
        passes ≤ (libraryConfig.unreferred themesRegistry start).card + 1 ∧
        (libraryConfig.resolveSchemas themesRegistry).Runs start () after ∧
        ∀ name ∈ after.required, name ∈ after.finished := by
  intro start
  have sound : themesRegistry.IsSound := by decide +kernel
  have pairs : themesRegistry.HasPairs := by decide +kernel
  have named : ∀ name ∈ start.required, ∃ message ∈ themesRegistry.fileMessages,
      libraryConfig.messageName message = name := by decide +kernel
  exact ⟨by decide +kernel, resolves_within libraryConfig sound pairs named⟩

end ServiceDoc
