import ServiceDoc.Proofs.Document.Effect
import ServiceDoc.Proofs.Document.Servers
import ServiceDoc.Proofs.Document.Tidy

/-!
# Settling a document

A build adds operations, resolves references and then settles the document: it names it, moves
servers up and sorts it. Settling a document keeps the names of its tags, and under each path and
verb the operation there and what serves it; a titled document keeps its tags.
-/

namespace ServiceDoc

open Build Workspace

/-! ## The steps -/

theorem Order.runs_apply {step : Element → Except Disorder Element} {work after : Workspace}
    {done : Unit} : (Order.apply step).Runs work done after ↔
      ∃ document, step work.document = .ok document ∧ after = { work with document } := by
  unfold Order.apply
  rw [runs_changeDocument]
  refine exists_congr fun document => and_congr_left fun _ => ?_
  cases step work.document <;> simp [Except.mapError]

/-- One document is settled as another: it is named, its servers are moved up, and it is sorted. -/
def Element.Settles (document settled : Element) : Prop :=
  ∃ promoted hoisted tagged placed, Title.promote document = .ok promoted ∧
    Servers.hoistChecked promoted = .ok hoisted ∧ Order.sortTags hoisted = .ok tagged ∧
    Order.sortPaths tagged = .ok placed ∧ Order.sortSchemas placed = .ok settled

/-- A build adds the operations of the files, resolves the references, and settles the document. -/
theorem Config.buildDocument_iff {config : Config} {registry : Registry} {files : List SourceFile}
    {base : Option Element} {document : Element} :
    (config.buildDocument registry files base).outcome = .ok document ↔
      ∃ operated resolved,
        (files.forM (config.addFile registry)).Runs { document := initialDocument config base } ()
          operated ∧
        (config.resolveSchemas registry).Runs operated () resolved ∧
        resolved.document.Settles document := by
  have steps : (config.buildDocument registry files base).outcome = .ok document ↔
      ∃ after, (config.buildSteps registry files).Runs
        { document := initialDocument config base } () after ∧ after.document = document := by
    have run (after : Workspace) : (config.buildSteps registry files).Runs
        { document := initialDocument config base } () after ↔
        (config.buildSteps registry files).run { document := initialDocument config base } =
          .ok () after := Iff.rfl
    simp only [run]
    unfold buildDocument
    split
    next after ran => simp [ran]
    next failure after ran => simp [ran]
  rw [steps]
  unfold buildSteps Order.sort Element.Settles
  simp only [runs_bind, runs_changeDocument, Order.runs_apply]
  constructor
  · rintro ⟨_, ⟨_, operated, operations, _, resolved, resolves, _, _, ⟨promoted, named, rfl⟩, _, _,
      ⟨hoisted, moved, rfl⟩, _, _, ⟨tagged, tags, rfl⟩, _, _, ⟨placed, paths, rfl⟩, settled, schemas,
      rfl⟩, rfl⟩
    exact ⟨operated, resolved, operations, resolves, promoted, hoisted, tagged, placed, named, moved,
      tags, paths, schemas⟩
  · rintro ⟨operated, resolved, operations, resolves, promoted, hoisted, tagged, placed, named,
      moved, tags, paths, schemas⟩
    exact ⟨_, ⟨(), operated, operations, (), resolved, resolves, (), _, ⟨promoted, named, rfl⟩, (),
      _, ⟨hoisted, moved, rfl⟩, (), _, ⟨tagged, tags, rfl⟩, (), _, ⟨placed, paths, rfl⟩, document,
      schemas, rfl⟩, rfl⟩

/-! ## What is kept -/

namespace Servers

/-- Operations without their servers, with the addresses that serve them, are the same: the
operations are one and the addresses are alike. -/
def SameServed (first second : Element × List (Option Value)) : Prop :=
  first.1 = second.1 ∧ Alike first.2 second.2

theorem SameServed.refl (served : Element × List (Option Value)) : SameServed served served :=
  ⟨rfl, .refl _⟩

theorem SameServed.symm {first second : Element × List (Option Value)}
    (same : SameServed first second) : SameServed second first :=
  ⟨same.1.symm, .symm _ _ same.2⟩

theorem SameServed.trans {first second third : Element × List (Option Value)}
    (same : SameServed first second) (again : SameServed second third) : SameServed first third :=
  ⟨same.1.trans again.1, .trans _ _ _ same.2 again.2⟩

theorem get?_tags_hoist (document : Element) :
    (hoist document).get? "tags" = document.get? "tags" := by
  rcases hoist_cases document with ⟨same, -⟩ | ⟨url, -, -, -, moved⟩
  · rw [same, Element.get?_set_of_ne _ _ (by decide)]
  · rw [moved, put, Element.get?_set_of_ne _ _ (by decide), Element.get?_set_of_ne _ _ (by decide)]

end Servers

/-- Entries with the same keys and related values have related values under every key. -/
theorem Entries.rel_get? {α β : Type} {relates : α → β → Prop} {entries : Entries α}
    {others : Entries β} (related : List.Forall₂ (fun entry other =>
      entry.1 = other.1 ∧ relates entry.2 other.2) entries others) (key : Scalar) :
    Option.Rel relates (entries.get? key) (others.get? key) := by
  induction related with
  | nil => exact .none
  | @cons entry other rest more first _ ih =>
      rw [get?_cons, get?_cons, ← first.1]
      split
      · exact .some first.2
      · exact ih

theorem Entries.keys_eq_of_forall₂ {α β : Type} {relates : α → β → Prop} {entries : Entries α}
    {others : Entries β} (related : List.Forall₂ (fun entry other =>
      entry.1 = other.1 ∧ relates entry.2 other.2) entries others) :
    entries.keys = others.keys := by
  induction related with
  | nil => rfl
  | cons first _ ih => exact congrArg₂ List.cons first.1 ih

namespace Element

/-- The operation of a document under a path and a verb without its servers, and the addresses that
serve it there. -/
def served? (document : Element) (path : Scalar) (verb : String) :
    Option (Element × List (Option Value)) :=
  ((document.table "paths").get? path).bind fun item => (item.one? verb).map fun operation =>
    (Servers.clear operation, Servers.serving document item operation)

variable {document settled : Element} {path : Scalar} {verb : String}

/-- If only operations have servers, those are what serves them. -/
theorem Unserved.served? (unserved : document.Unserved) (path : Scalar) (verb : String) :
    document.served? path verb = (document.slot? path verb).map fun operation =>
      (Servers.clear operation, Servers.urls operation) := by
  have root : Servers.urls document = [] := congrArg (List.map _) unserved.root
  unfold Element.served? slot?
  cases found : (document.table "paths").get? path with
  | none => rfl
  | some item =>
      have none : Servers.urls item = [] :=
        congrArg (List.map _) (unserved.paths _ (Entries.mem_of_get? found))
      have within (operation : Element) :
          Servers.serving document item operation = Servers.urls operation := by
        unfold Servers.serving Servers.urlsWithin
        rw [root, none]
        cases Servers.urls operation <;> rfl
      simp only [Option.bind_some, within]

/-- An operation is served as it is, but for its servers. -/
theorem map_fst_served? (document : Element) (path : Scalar) (verb : String) :
    (document.served? path verb).map Prod.fst = (document.slot? path verb).map Servers.clear := by
  unfold served? slot?
  cases (document.table "paths").get? path with
  | none => rfl
  | some item =>
      rw [Option.bind_some, Option.bind_some, Option.map_map]
      rfl

/-- What serves operations depends on the paths and servers of a document alone. -/
theorem served?_congr {other : Element} (paths : other.get? "paths" = document.get? "paths")
    (servers : other.get? "servers" = document.get? "servers") :
    other.served? path verb = document.served? path verb := by
  unfold served? Servers.serving table Servers.urls many
  rw [paths, servers]

theorem served?_set_of_ne {key : String} (content : Content) (paths : "paths" ≠ key)
    (servers : "servers" ≠ key) :
    (document.set key content).served? path verb = document.served? path verb :=
  served?_congr (get?_set_of_ne _ _ paths) (get?_set_of_ne _ _ servers)

/-- The order of paths does not matter to what serves operations. -/
theorem served?_set_paths {paths : Entries Element} (moved : paths.Perm (document.table "paths"))
    (distinct : (document.table "paths").keys.Nodup) :
    (document.set "paths" (.table paths)).served? path verb = document.served? path verb := by
  unfold served? Servers.serving
  rw [table_set_self, Entries.get?_of_perm moved distinct, Servers.urls_set (by decide)]

/-- Moving servers up keeps operations but for their servers, and what serves them. -/
theorem served?_hoist (member : verb ∈ Kind.verbs) : Option.Rel Servers.SameServed
    (document.served? path verb) ((Servers.hoist document).served? path verb) := by
  have rerouted := Entries.rel_get? (Servers.reroutes_hoist document) path
  unfold served?
  generalize (document.table "paths").get? path = item,
    ((Servers.hoist document).table "paths").get? path = moved at rerouted ⊢
  cases rerouted with
  | none => exact .none
  | @some item moved slots =>
      have slot := slots verb member
      rw [Option.bind_some, Option.bind_some]
      generalize item.one? verb = operation, moved.one? verb = other at slot ⊢
      cases slot with
      | none => exact .none
      | some same => exact .some same

/-- A document with a title is not named. -/
theorem promote_of_titled
    (titled : Title.isSet ((document.one? "info").getD (.empty .info)) "title" = true) :
    Title.promote document = .ok document := by
  unfold Title.promote
  dsimp only
  split
  · rw [if_pos titled]
  · rfl

/-- Naming a document changes what is said about it, and of a tag no more than its description. -/
structure Names (document named : Element) : Prop where
  paths : named.get? "paths" = document.get? "paths"
  servers : named.get? "servers" = document.get? "servers"
  tags : (named.many "tags").map Title.tagName = (document.many "tags").map Title.tagName

theorem Names.table_paths {named : Element} (names : document.Names named) :
    named.table "paths" = document.table "paths" := by
  unfold table
  rw [names.paths]

theorem names_promote {named : Element} (promoted : Title.promote document = .ok named) :
    document.Names named := by
  have same : document.Names document := ⟨rfl, rfl, rfl⟩
  have renamed (info : Element) : document.Names (document.set "info" (.one info)) :=
    ⟨get?_set_of_ne _ _ (by decide), get?_set_of_ne _ _ (by decide), by
      rw [many_set_of_ne _ _ (by decide)]⟩
  unfold Title.promote at promoted
  dsimp only at promoted
  split at promoted
  next tag only =>
    split at promoted
    · exact Except.ok.inj promoted ▸ same
    split at promoted
    · contradiction
    rw [← Except.ok.inj promoted]
    unfold Title.nameAfter
    dsimp only
    split
    · refine ⟨?_, ?_, ?_⟩
      · rw [get?_set_of_ne _ _ (by decide), (renamed _).paths]
      · rw [get?_set_of_ne _ _ (by decide), (renamed _).servers]
      · rw [many_set_self, only]
        unfold Title.tagName value?
        rw [List.map_singleton, get?_erase_of_ne _ (by decide), List.map_singleton]
    · exact renamed _
  next => exact Except.ok.inj promoted ▸ same

namespace Settles

/-- Settling a document keeps its component schemas, perhaps in another order. -/
theorem componentSchemas_perm (settles : document.Settles settled) :
    settled.componentSchemas.Perm document.componentSchemas := by
  obtain ⟨promoted, hoisted, tagged, placed, named, moved, tags, paths, schemas⟩ := settles
  exact ((((tidies_promote named).trans (tidies_hoistChecked moved)).trans
    (Order.tidies_sortTags tags)).trans (Order.tidies_sortPaths paths)).trans
    (Order.tidies_sortSchemas schemas) |>.schemas

variable (settles : document.Settles settled)

include settles

/-- A document is named, has its servers moved up, and has its tags, paths and components set. -/
theorem arranges : ∃ named tags paths components, Title.promote document = .ok named ∧
    tags.Perm (named.many "tags") ∧ paths.Perm ((Servers.hoist named).table "paths") ∧
    settled = (((Servers.hoist named).set "tags" (.many tags)).set "paths"
      (.table paths)).set "components" (.one components) := by
  obtain ⟨named, hoisted, tagged, placed, promoted, moved, tagging, placing, storing⟩ := settles
  have checked : Servers.hoist named = hoisted := by
    unfold Servers.hoistChecked at moved
    split at moved
    · exact Except.ok.inj moved
    · cases moved
  subst checked
  obtain ⟨tags, tags_sorted, tagging⟩ := bind_eq_ok.mp tagging
  obtain ⟨paths, paths_sorted, placing⟩ := bind_eq_ok.mp placing
  obtain ⟨schemas, -, storing⟩ := bind_eq_ok.mp storing
  rw [pure_eq_ok] at tagging placing storing
  subst tagging
  rw [table_set_of_ne _ _ (by decide)] at paths_sorted
  have kept : (Servers.hoist named).many "tags" = named.many "tags" := by
    unfold many
    rw [Servers.get?_tags_hoist]
  exact ⟨named, tags, paths, _, promoted, kept ▸ perm_sortBy tags_sorted, perm_sortBy paths_sorted,
    by rw [← storing, ← placing]⟩

/-- Settling a document with a title keeps its tags, perhaps in another order. -/
theorem tags_perm
    (titled : Title.isSet ((document.one? "info").getD (.empty .info)) "title" = true) :
    (settled.many "tags").Perm (document.many "tags") := by
  obtain ⟨named, tags, paths, components, promoted, tags_moved, -, rfl⟩ := settles.arranges
  rw [promote_of_titled titled, Except.ok.injEq] at promoted
  subst promoted
  rw [many_set_of_ne _ _ (by decide), many_set_of_ne _ _ (by decide), many_set_self]
  exact tags_moved

/-- Settling a document keeps the names of its tags, perhaps in another order. -/
theorem tagNames_perm : ((settled.many "tags").map Title.tagName).Perm
    ((document.many "tags").map Title.tagName) := by
  obtain ⟨named, tags, paths, components, promoted, tags_moved, -, rfl⟩ := settles.arranges
  rw [many_set_of_ne _ _ (by decide), many_set_of_ne _ _ (by decide), many_set_self,
    ← (names_promote promoted).tags]
  exact tags_moved.map _

/-- Settling a document keeps its paths, perhaps in another order. -/
theorem keys_perm : (settled.table "paths").keys.Perm (document.table "paths").keys := by
  obtain ⟨named, tags, paths, components, promoted, -, paths_moved, rfl⟩ := settles.arranges
  rw [table_set_of_ne _ _ (by decide), table_set_self, ← (names_promote promoted).table_paths,
    Entries.keys_eq_of_forall₂ (Servers.reroutes_hoist named)]
  exact paths_moved.map _

/-- Settling a document keeps operations but for their servers, and what serves them. -/
theorem served? (distinct : (document.table "paths").keys.Nodup) (member : verb ∈ Kind.verbs) :
    Option.Rel Servers.SameServed (document.served? path verb) (settled.served? path verb) := by
  obtain ⟨named, tags, paths, components, promoted, -, paths_moved, rfl⟩ := settles.arranges
  have names := names_promote promoted
  have keys := Entries.keys_eq_of_forall₂ (Servers.reroutes_hoist named)
  rw [served?_set_of_ne _ (by decide) (by decide), served?_set_paths,
    served?_set_of_ne _ (by decide) (by decide), ← served?_congr names.paths names.servers]
  · exact served?_hoist member
  · rw [table_set_of_ne _ _ (by decide)]
    exact paths_moved
  · rw [table_set_of_ne _ _ (by decide), ← keys, names.table_paths]
    exact distinct

/-- Settling a document keeps operations but for their servers. -/
theorem slot? (distinct : (document.table "paths").keys.Nodup) (member : verb ∈ Kind.verbs) :
    (settled.slot? path verb).map Servers.clear = (document.slot? path verb).map Servers.clear := by
  rw [← map_fst_served?, ← map_fst_served?]
  have same : Option.Rel _ (document.served? path verb) (settled.served? path verb) :=
    settles.served? distinct member
  generalize document.served? path verb = served, settled.served? path verb = again at same ⊢
  cases same with
  | none => rfl
  | some same => exact congrArg some same.1.symm

end Settles

end Element

end ServiceDoc
