import ServiceDoc.Document.Assemble
import ServiceDoc.Proofs.Document.Component
import ServiceDoc.Proofs.Value.Sorting

/-!
# Last steps of a document

Naming a document, moving servers up and sorting bring no reference, and leave the component schemas
as they are but for their order.
-/

namespace ServiceDoc

open Build Workspace

/-- The second document refers to nothing that the first does not refer to, and has the same
component schemas, perhaps in another order. -/
structure Element.Tidies (document after : Element) : Prop where
  resolves : ∀ names, document.ResolvesIn names → after.ResolvesIn names
  schemas : after.componentSchemas.Perm document.componentSchemas

namespace Element.Tidies

variable {document between after : Element}

theorem refl (document : Element) : document.Tidies document := ⟨fun _ => id, .refl _⟩

theorem trans (first : document.Tidies between) (second : between.Tidies after) :
    document.Tidies after :=
  ⟨fun names resolves => second.resolves names (first.resolves names resolves),
    second.schemas.trans first.schemas⟩

/-- A field other than the components is set to what refers to nothing else. -/
theorem set {key : String} {content : Content} (plain : "$ref" ≠ key)
    (other : "components" ≠ key) (inner : ∀ names, document.ResolvesIn names →
      content.ResolvesIn names) : document.Tidies (document.set key content) :=
  ⟨fun names resolves => resolves.set plain (inner names resolves),
    .of_eq (componentSchemas_set_of_ne _ _ other)⟩

end Element.Tidies

open Element

variable {document after : Element} {names : String → Prop}

theorem tidies_nameAfter {tag : Element}
    (among : ∀ names, document.ResolvesIn names → tag.ResolvesIn names) :
    document.Tidies (Title.nameAfter tag document) := by
  let titled := ((document.one? "info").getD (.empty .info)).set "title"
    (.value (Title.ofName (Title.tagName tag)))
  have titled_resolves {names : String → Prop} (resolves : document.ResolvesIn names) :
      titled.ResolvesIn names := by
    refine ResolvesIn.set ?_ (by decide) Content.resolvesIn_value
    cases found : document.one? "info" with
    | none => exact resolvesIn_empty (by decide)
    | some info => exact resolves.one? found
  unfold Title.nameAfter
  dsimp only
  split
  next _ description _ found =>
    have info : document.Tidies (document.set "info"
        (.one (titled.set "description" description))) :=
      .set (by decide) (by decide) fun names resolves =>
        (titled_resolves resolves).set (by decide) ((among names resolves).get? found)
    refine ⟨fun names resolves => (info.resolves names resolves).set (by decide)
      (Content.resolvesIn_many.mpr fun _ member => ?_), ?_⟩
    · exact List.mem_singleton.mp member ▸ (among names resolves).erase (by decide)
    · rw [componentSchemas_set_of_ne _ _ (by decide)]
      exact info.schemas
  next => exact .set (by decide) (by decide) fun names resolves => titled_resolves resolves

/-- Naming a document after its only tag. -/
theorem tidies_promote (promoted : Title.promote document = .ok after) :
    document.Tidies after := by
  unfold Title.promote at promoted
  dsimp only at promoted
  split at promoted
  next tag only =>
    split at promoted
    · exact Except.ok.inj promoted ▸ .refl _
    split at promoted
    · contradiction
    · exact Except.ok.inj promoted ▸ tidies_nameAfter fun names resolves =>
        resolves.many "tags" tag (only ▸ List.mem_singleton_self tag)
  next => exact Except.ok.inj promoted ▸ .refl _

/-! ## Servers -/

namespace Servers

theorem resolvesIn_clear {element : Element} (resolves : element.ResolvesIn names) :
    (clear element).ResolvesIn names :=
  resolves.set (by decide) (Content.resolvesIn_many.mpr fun _ member =>
    (List.not_mem_nil member).elim)

theorem resolvesIn_put {element : Element} (resolves : element.ResolvesIn names) (url : Value) :
    (put url element).ResolvesIn names :=
  resolves.set (by decide) (Content.resolvesIn_many.mpr fun _ member =>
    List.mem_singleton.mp member ▸
      (resolvesIn_empty (by decide)).set (by decide) Content.resolvesIn_value)

/-- Leaving the operations of a path without servers brings no reference. -/
theorem resolvesIn_mapOperations {item : Element} {change : Element → Element}
    (keeps : ∀ operation : Element, operation.ResolvesIn names →
      (change operation).ResolvesIn names)
    (resolves : item.ResolvesIn names) : (PathItem.mapOperations change item).ResolvesIn names := by
  have plain : ∀ verb ∈ Kind.verbs, "$ref" ≠ verb := by decide
  unfold PathItem.mapOperations
  generalize Kind.verbs = verbs at plain
  induction verbs generalizing item with
  | nil => exact resolves
  | cons verb rest ih =>
      rw [List.forall_mem_cons] at plain
      refine ih ?_ plain.2
      dsimp only
      split
      next operation found =>
        exact resolves.set plain.1 (Content.resolvesIn_one.mpr (keeps _ (resolves.one? found)))
      next => exact resolves

theorem resolvesIn_hoistToPath {item : Element} (resolves : item.ResolvesIn names) :
    (hoistToPath item).ResolvesIn names := by
  unfold hoistToPath
  dsimp only
  split
  · split
    · exact resolvesIn_put
        (resolvesIn_mapOperations (fun _ inner => resolvesIn_clear inner) resolves) _
    · exact resolves
  · exact resolves

theorem resolvesIn_mapEntries {entries : Entries Element} {change : Element → Element}
    (keeps : ∀ element : Element, element.ResolvesIn names → (change element).ResolvesIn names)
    (all : ∀ entry ∈ entries, entry.2.ResolvesIn names) :
    ∀ entry ∈ mapEntries change entries, entry.2.ResolvesIn names := by
  intro entry member
  obtain ⟨inner, inside, rfl⟩ := List.mem_map.mp member
  exact keeps inner.2 (all inner inside)

end Servers

/-- Moving shared servers up. -/
theorem tidies_hoist : document.Tidies (Servers.hoist document) := by
  have hoisted {names : String → Prop} (resolves : document.ResolvesIn names) :
      ∀ entry ∈ Servers.mapEntries Servers.hoistToPath (document.table "paths"),
        entry.2.ResolvesIn names :=
    Servers.resolvesIn_mapEntries (fun _ => Servers.resolvesIn_hoistToPath)
      (resolves.table "paths")
  have kept : document.Tidies (document.set "paths"
      (.table (Servers.mapEntries Servers.hoistToPath (document.table "paths")))) :=
    .set (by decide) (by decide) fun names resolves =>
      Content.resolvesIn_table.mpr (hoisted resolves)
  unfold Servers.hoist
  dsimp only
  split
  · split
    · refine ⟨fun names resolves => Servers.resolvesIn_put (resolves.set (by decide)
        (Content.resolvesIn_table.mpr (Servers.resolvesIn_mapEntries
          (fun _ => Servers.resolvesIn_clear) (hoisted resolves)))) _, ?_⟩
      unfold Servers.put
      rw [componentSchemas_set_of_ne _ _ (by decide), componentSchemas_set_of_ne _ _ (by decide)]
    · exact kept
  · exact kept

theorem tidies_hoistChecked (hoisted : Servers.hoistChecked document = .ok after) :
    document.Tidies after := by
  unfold Servers.hoistChecked at hoisted
  split at hoisted
  · exact Except.ok.inj hoisted ▸ tidies_hoist
  · contradiction

/-! ## Sorting -/

namespace Order

theorem tidies_sortTags (sorted : sortTags document = .ok after) : document.Tidies after := by
  obtain ⟨tags, found, sorted⟩ := bind_eq_ok.mp sorted
  rw [← pure_eq_ok.mp sorted]
  exact .set (by decide) (by decide) fun names resolves => Content.resolvesIn_many.mpr
    fun tag member => resolves.many "tags" tag ((perm_sortBy found).mem_iff.mp member)

theorem tidies_sortPaths (sorted : sortPaths document = .ok after) : document.Tidies after := by
  obtain ⟨paths, found, sorted⟩ := bind_eq_ok.mp sorted
  rw [← pure_eq_ok.mp sorted]
  exact .set (by decide) (by decide) fun names resolves => Content.resolvesIn_table.mpr
    fun entry member => resolves.table "paths" entry ((perm_sortBy found).mem_iff.mp member)

theorem tidies_sortSchemas (sorted : sortSchemas document = .ok after) :
    document.Tidies after := by
  obtain ⟨schemas, found, sorted⟩ := bind_eq_ok.mp sorted
  rw [← pure_eq_ok.mp sorted]
  have moved : schemas.Perm document.componentSchemas := perm_sortBy found
  refine ⟨fun names resolves => resolves.set (by decide) (Content.resolvesIn_one.mpr
    (resolves.components.set (by decide)
      (Content.resolvesIn_table.mpr fun entry member => ?_))), ?_⟩
  · exact resolves.components.table "schemas" entry (moved.mem_iff.mp member)
  · unfold componentSchemas
    rw [one?_set_self, Option.getD_some, table_set_self]
    exact moved

end Order

variable {work done : Workspace}

/-- A change of the document that can fail tidies what each change does. -/
theorem tidies_of_changeDocument {change : Element → Except Failure Element}
    (tidies : ∀ document after, change document = .ok after → document.Tidies after)
    (runs : (changeDocument change).Runs work () done) : work.document.Tidies done.document := by
  obtain ⟨document, changed, rfl⟩ := runs_changeDocument.mp runs
  exact tidies _ _ changed

theorem Order.tidies_apply {step : Element → Except Disorder Element}
    (tidies : ∀ document after, step document = .ok after → document.Tidies after)
    (runs : (Order.apply step).Runs work () done) : work.document.Tidies done.document := by
  refine tidies_of_changeDocument (fun document after changed => ?_) runs
  cases sorted : step document with
  | error disorder => simp [sorted, Except.mapError] at changed
  | ok sorted_document =>
      rw [sorted] at changed
      exact Except.ok.inj changed ▸ tidies _ _ sorted

/-- Sorting a document. -/
theorem Order.tidies_sort (runs : Order.sort.Runs work () done) :
    work.document.Tidies done.document := by
  unfold Order.sort at runs
  simp only [runs_bind] at runs
  obtain ⟨_, _, tags, _, _, paths, schemas⟩ := runs
  exact ((tidies_apply (fun _ _ => tidies_sortTags) tags).trans
    (tidies_apply (fun _ _ => tidies_sortPaths) paths)).trans
    (tidies_apply (fun _ _ => tidies_sortSchemas) schemas)

namespace Config

variable {config : Config} {registry : Registry} {files : List SourceFile}

/-- A build adds the operations of the files, resolves the references, and tidies the document. -/
theorem buildDocument_runs
    (built : (config.buildDocument registry files none).outcome = .ok document) :
    ∃ operated resolved,
      (files.forM (config.addFile registry)).Runs { document := initialDocument config none } ()
        operated ∧
      (config.resolveSchemas registry).Runs operated () resolved ∧
      resolved.document.Tidies document := by
  unfold buildDocument at built
  split at built
  next after run =>
    have runs : (config.buildSteps registry files).Runs
      { document := initialDocument config none } () after := run
    unfold buildSteps at runs
    simp only [runs_bind] at runs
    obtain ⟨_, operated, operations, _, resolved, schemas, _, _, named, _, _, hoisted, sorted⟩ :=
      runs
    refine ⟨operated, resolved, operations, schemas, ?_⟩
    have tidied := ((tidies_of_changeDocument (fun _ _ => tidies_promote) named).trans
      (tidies_of_changeDocument (fun _ _ => tidies_hoistChecked) hoisted)).trans
      (Order.tidies_sort sorted)
    exact Except.ok.inj built ▸ tidied
  next => contradiction

end Config

end ServiceDoc
