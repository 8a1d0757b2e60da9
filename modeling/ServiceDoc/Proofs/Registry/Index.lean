import ServiceDoc.Proofs.Value.Entries
import ServiceDoc.Registry.Index

/-!
# The index of a registry

A registry indexes the messages of its files by their full names: every name once, under it a
message that has this name and that some file defines.
-/

namespace ServiceDoc

namespace Index

variable {α : Type} {index : Index α} {name : String} {value : α} {entry : String × α}

theorem mem_put (member : entry ∈ index.put name value) :
    entry ∈ index ∨ entry = (name, value) := by
  induction index with
  | nil => exact .inr (List.mem_singleton.mp member)
  | cons first rest ih =>
      obtain ⟨other, old⟩ := first
      by_cases same : other = name
      · rw [put, if_pos same] at member
        rcases List.mem_cons.mp member with rfl | member
        · exact .inr rfl
        · exact .inl (.tail _ member)
      · rw [put, if_neg same] at member
        rcases List.mem_cons.mp member with rfl | member
        · exact .inl (.head _)
        · exact (ih member).imp_left (.tail _)

/-- The names of an index stay different when one is set. -/
theorem nodup_put (distinct : (index.map Prod.fst).Nodup) (name : String) (value : α) :
    ((index.put name value).map Prod.fst).Nodup := by
  induction index with
  | nil => exact List.nodup_singleton name
  | cons first rest ih =>
      obtain ⟨other, old⟩ := first
      obtain ⟨fresh, later⟩ := List.nodup_cons.mp distinct
      by_cases same : other = name
      · rw [put, if_pos same]
        exact List.nodup_cons.mpr ⟨same ▸ fresh, later⟩
      · rw [put, if_neg same]
        refine List.nodup_cons.mpr ⟨fun member => ?_, ih later⟩
        obtain ⟨entry, inside, named⟩ := List.mem_map.mp member
        rcases mem_put inside with inside | rfl
        · exact fresh (named ▸ List.mem_map_of_mem inside)
        · exact same named.symm

/-- A name that is set is there, and so are the others. -/
theorem mem_keys_put {other : String} :
    other ∈ (index.put name value).map Prod.fst ↔ other = name ∨ other ∈ index.map Prod.fst := by
  induction index with
  | nil => simp [put]
  | cons first rest ih =>
      obtain ⟨known, old⟩ := first
      by_cases same : known = name
      · subst same
        simp [put]
      · rw [put, if_neg same, List.map_cons, List.map_cons, List.mem_cons, List.mem_cons, ih]
        exact or_left_comm

/-- Setting the names of items one after the other keeps the names of an index different, and what
holds of its entries if it holds of the new ones. -/
theorem foldl_put {holds : String × α → Prop} (key : α → String) {items : List α}
    (distinct : (index.map Prod.fst).Nodup) (old : ∀ entry ∈ index, holds entry)
    (new : ∀ item ∈ items, holds (key item, item)) :
    ((items.foldl (fun index item => index.put (key item) item) index).map Prod.fst).Nodup ∧
      ∀ entry ∈ items.foldl (fun index item => index.put (key item) item) index, holds entry := by
  induction items generalizing index with
  | nil => exact ⟨distinct, old⟩
  | cons item rest ih =>
      refine ih (nodup_put distinct _ _) (fun entry member => ?_)
        fun other member => new other (.tail _ member)
      rcases mem_put member with member | rfl
      · exact old entry member
      · exact new item (.head _)

theorem mem_keys_foldl_put (key : α → String) {items : List α} {other : String} :
    other ∈ (items.foldl (fun index item => index.put (key item) item) index).map Prod.fst ↔
      other ∈ index.map Prod.fst ∨ other ∈ items.map key := by
  induction items generalizing index with
  | nil => simp
  | cons item rest ih =>
      rw [List.foldl_cons, ih, mem_keys_put, List.map_cons, List.mem_cons, or_assoc]
      exact or_left_comm

end Index

namespace Registry

/-- The messages of all files, each file after the one before it. -/
def fileMessages (registry : Registry) : List Message :=
  registry.files.flatMap SourceFile.messages

/-- An index holds messages of the files under their full names. -/
structure Indexed (registry : Registry) : Prop where
  distinct : (registry.messages.map Prod.fst).Nodup
  /-- A name stands for a message of this name. -/
  named : ∀ entry ∈ registry.messages, entry.2.fullName = entry.1
  defined : ∀ entry ∈ registry.messages, entry.2 ∈ registry.fileMessages
  /-- Every message of a file is indexed, if not replaced by another one of its name. -/
  complete : ∀ message ∈ registry.fileMessages, ∃ entry ∈ registry.messages,
    entry.1 = message.fullName

/-- Adding a file keeps the index right. -/
theorem Indexed.add {registry : Registry} (indexed : registry.Indexed)
    (definition : FileDefinition) : (registry.add definition).Indexed := by
  let file := SourceFile.ofDefinition registry.generated (registry.nextPosition definition.name)
    definition
  have files : (registry.add definition).files = registry.files ++ [file] := rfl
  have earlier (message : Message) (member : message ∈ registry.fileMessages) :
      message ∈ (registry.add definition).fileMessages := by
    rw [fileMessages, files, List.flatMap_append]
    exact List.mem_append_left _ member
  have new (message : Message) (member : message ∈ file.messages) :
      message ∈ (registry.add definition).fileMessages := by
    rw [fileMessages, files, List.flatMap_append]
    exact List.mem_append_right _ (List.mem_flatMap.mpr ⟨file, List.mem_singleton_self _, member⟩)
  have old (entry : String × Message) (member : entry ∈ registry.messages) :
      entry.2.fullName = entry.1 ∧ entry.2 ∈ (registry.add definition).fileMessages :=
    ⟨indexed.named entry member, earlier _ (indexed.defined entry member)⟩
  obtain ⟨distinct, each⟩ := Index.foldl_put Message.fullName indexed.distinct old
    fun message member => ⟨rfl, new message member⟩
  have complete (message : Message)
      (member : message ∈ (registry.add definition).fileMessages) :
      message.fullName ∈ (registry.add definition).messages.map Prod.fst := by
    rw [fileMessages, files, List.flatMap_append, List.mem_append, List.flatMap_singleton] at member
    refine (Index.mem_keys_foldl_put Message.fullName).mpr (member.imp (fun member => ?_)
      List.mem_map_of_mem)
    obtain ⟨entry, inside, named⟩ := indexed.complete message member
    exact List.mem_map.mpr ⟨entry, inside, named⟩
  exact ⟨distinct, fun entry member => (each entry member).1,
    fun entry member => (each entry member).2, fun message member =>
      List.mem_map.mp (complete message member)⟩

/-- The registry of files has a right index. -/
theorem indexed_ofFiles (generated : List String) (files : List FileDefinition) :
    (ofFiles generated files).Indexed := by
  have start : Indexed { generated } :=
    ⟨List.nodup_nil, fun _ member => (List.not_mem_nil member).elim,
      fun _ member => (List.not_mem_nil member).elim,
      fun _ member => (List.not_mem_nil member).elim⟩
  unfold ofFiles
  generalize ({ generated } : Registry) = registry at start ⊢
  induction files generalizing registry with
  | nil => exact start
  | cons file rest ih => exact ih (registry.add file) (start.add file)

variable {registry : Registry} {message : Message} {field : MessageField}

theorem mem_of_message? {typeName : String} (found : registry.message? typeName = some message) :
    (withoutDot typeName, message) ∈ registry.messages :=
  mem_of_lookup found

theorem message?_of_messageOf? (found : registry.messageOf? field = some message) :
    registry.message? field.definition.typeName = some message := by
  unfold messageOf? at found
  split at found
  · exact found
  · contradiction

end Registry

/-! ## A library -/

/-- A library whose shelves hold books that know their shelf and their sequel. -/
def libraryFile : FileDefinition where
  name := "library.proto"
  package := "library"
  messages := [
    { name := "Shelf"
      fields := [
        { name := "theme", type := .string },
        { name := "books", type := .message, typeName := ".library.Book", label := .repeated }] },
    { name := "Book"
      fields := [
        { name := "title", type := .string },
        { name := "sequel", type := .message, typeName := ".library.Book" },
        { name := "shelf", type := .message, typeName := ".library.Shelf" }] }]
  services := [
    { name := "Library"
      methods := [
        { name := "GetShelf"
          input := ".library.Book"
          output := ".library.Shelf"
          rules := [{ pattern := .verb "get" "/shelves/\x7btitle\x7d" }] }] }]

/-- The registry of the library alone. -/
def libraryRegistry : Registry := .ofFiles ["library.proto"] [libraryFile]

example : (libraryRegistry.message? ".library.Book").map Message.name = some "Book" := by decide

end ServiceDoc
