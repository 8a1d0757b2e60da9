import ServiceDoc.Proofs.Document.Servers

/-!
# Hoisting servers is safe and done at once

In a document all of whose addresses are texts, moving servers up comes to an end, leaves what
serves every operation as it is, and leaves nothing to be moved up.
-/

namespace ServiceDoc

open Element PathItem

namespace Servers

variable {document item element : Element} {url : Value} {outer : List (Option Value)}

/-! ## Addresses that are texts -/

/-- Whether the servers of an element have texts for addresses, where they have any. -/
def hasTexts (element : Element) : Bool := (urls element).all (Option.all Value.isText)

/-- Whether all servers of a document, of its paths and of their operations have texts for
addresses. -/
def hasTextsThroughout (document : Element) : Bool :=
  hasTexts document && (document.table "paths").all fun entry =>
    hasTexts entry.2 && (operations entry.2).all hasTexts

theorem isText_of_urls (texts : hasTexts element) (member : some url ∈ urls element) :
    url.isText :=
  List.all_eq_true.mp texts _ member

theorem isText_of_urlsWithin (outerTexts : ∀ url, some url ∈ outer → url.isText)
    (texts : hasTexts element) : ∀ url, some url ∈ urlsWithin outer element → url.isText := by
  intro url member
  unfold urlsWithin at member
  split at member
  · exact outerTexts url member
  · exact isText_of_urls texts member

theorem isText_of_soleUrl? (texts : hasTexts element) (sole : soleUrl? element = some url) :
    url.isText :=
  isText_of_urls texts (soleUrl?_eq_some.mp sole ▸ List.mem_singleton_self _)

/-- Operations with texts for addresses are served by what served them. -/
theorem Reroutes.map_serving {inner : List (Option Value)} {moved : Element}
    (rerouted : Reroutes outer inner item moved)
    (texts : ∀ operation ∈ operations item, ∀ url,
      some url ∈ urlsWithin (urlsWithin outer item) operation → url.isText) :
    (Kind.verbs.map fun verb =>
        (moved.one? verb).map (urlsWithin (urlsWithin inner moved))) =
      Kind.verbs.map fun verb => (item.one? verb).map (urlsWithin (urlsWithin outer item)) := by
  refine List.map_congr_left fun verb member => ?_
  have slot := rerouted verb member
  have found (operation : Element) (holds : item.one? verb = some operation) :=
    texts operation (mem_operations.mpr ⟨verb, member, holds⟩)
  generalize item.one? verb = operation, moved.one? verb = other at slot found ⊢
  cases slot with
  | none => rfl
  | some same => exact congrArg some (same.2.eq_of_texts (found _ rfl)).symm

/-- What serves the operations of a document with texts for addresses stays as it is. -/
theorem routes_hoist (texts : hasTextsThroughout document) :
    routes (hoist document) = routes document := by
  obtain ⟨ownTexts, allTexts⟩ := Bool.and_eq_true_iff.mp texts
  rw [List.all_eq_true] at allTexts
  have rerouted := (List.forall₂_and_left _ _).mpr ⟨allTexts, reroutes_hoist document⟩
  unfold routes
  rw [eq_comm, ← List.forall₂_eq_eq_eq, List.forall₂_map_left_iff, List.forall₂_map_right_iff]
  refine rerouted.imp fun entry moved ⟨entryTexts, path, slots⟩ => Prod.ext path ?_
  obtain ⟨itemTexts, operationTexts⟩ := Bool.and_eq_true_iff.mp entryTexts
  rw [List.all_eq_true] at operationTexts
  refine (slots.map_serving fun operation member => ?_).symm
  exact isText_of_urlsWithin
    (isText_of_urlsWithin (fun url => isText_of_urls ownTexts) itemTexts)
    (operationTexts operation member)

/-! ## The different addresses -/

section Different

variable {known added : List Value} {other : Value}

theorem mem_addNew (text : url.isText) :
    other ∈ addNew known url ↔ other ∈ known ∨ other = url := by
  unfold addNew
  split
  next found =>
    obtain ⟨held, member, same⟩ := List.any_eq_true.mp found
    rw [Value.same_iff_of_text (.inl text)] at same
    exact ⟨.inl, fun among => among.elim id fun one => one ▸ same ▸ member⟩
  next => rw [List.mem_append, List.mem_singleton]

theorem mem_foldl_addNew (texts : ∀ url ∈ added, url.isText) :
    other ∈ added.foldl addNew known ↔ other ∈ known ∨ other ∈ added := by
  induction added generalizing known with
  | nil => simp
  | cons first rest ih =>
      rw [List.forall_mem_cons] at texts
      rw [List.foldl_cons, ih texts.2, mem_addNew texts.1, List.mem_cons, or_assoc]

/-- Texts that are all one make a single address. -/
theorem foldl_addNew_eq_singleton (text : url.isText) (all : ∀ other ∈ added, other = url)
    (some : added ≠ []) : added.foldl addNew [] = [url] := by
  have again : addNew [url] url = [url] := by
    unfold addNew
    rw [List.any_cons, (Value.same_iff_of_text (.inl text)).mpr rfl, Bool.true_or, if_pos rfl]
  cases added with
  | nil => exact (some rfl).elim
  | cons first rest =>
      rw [List.forall_mem_cons] at all
      obtain ⟨rfl, all⟩ := all
      rw [List.foldl_cons]
      change rest.foldl addNew [first] = [first]
      clear some
      induction rest with
      | nil => rfl
      | cons second rest ih =>
          rw [List.forall_mem_cons] at all
          rw [List.foldl_cons, all.1, again, ih all.2]

end Different

theorem urlsOfPaths_eq (paths : Entries Element) : urlsOfPaths paths =
    (paths.flatMap fun entry => urlsOf (operations entry.2)).foldl addNew [] :=
  List.foldl_flatMap.symm

/-- Whether all operations of a path have texts for addresses. -/
def operationsHaveTexts (item : Element) : Bool := (operations item).all hasTexts

theorem isText_of_urlsOf (texts : operationsHaveTexts item)
    (member : url ∈ urlsOf (operations item)) : url.isText := by
  have soleTexts : ∀ url ∈ (operations item).filterMap soleUrl?, url.isText := by
    intro url member
    obtain ⟨operation, inside, sole⟩ := List.mem_filterMap.mp member
    exact isText_of_soleUrl? (List.all_eq_true.mp texts operation inside) sole
  unfold urlsOf at member
  rw [mem_foldl_addNew soleTexts] at member
  exact soleTexts url (member.resolve_left List.not_mem_nil)

theorem urlsOf_map_clear (elements : List Element) : urlsOf (elements.map clear) = [] := by
  have none : (elements.map clear).filterMap soleUrl? = [] := by
    rw [List.filterMap_map, List.filterMap_eq_nil_iff]
    exact fun _ _ => soleUrl?_clear
  unfold urlsOf
  rw [none, List.foldl_nil]

/-! ## Moving servers up twice -/

theorem operations_put (url : Value) (item : Element) :
    operations (put url item) = operations item :=
  operations_set (by decide) _

theorem operations_clear (item : Element) : operations (clear item) = operations item :=
  operations_set (by decide) _

theorem isSettled_of_urlsOf_nil (none : urlsOf (operations item) = []) : IsSettled item := by
  intro url found
  rw [none] at found
  cases found

/-- A path is left with nothing to be moved up. -/
theorem isSettled_hoistToPath (item : Element) : IsSettled (hoistToPath item) := by
  rcases hoistToPath_cases item with settled | ⟨url, -, -, moved⟩
  · rwa [hoistToPath_of_isSettled settled]
  · rw [moved]
    apply isSettled_of_urlsOf_nil
    rw [operations_put, operations_mapOperations, urlsOf_map_clear]

theorem isSettled_clear (settled : IsSettled item) : IsSettled (clear item) := by
  unfold IsSettled
  rw [operations_clear]
  exact settled

theorem mapEntries_hoistToPath {paths : Entries Element}
    (settled : ∀ entry ∈ paths, IsSettled entry.2) : mapEntries hoistToPath paths = paths := by
  have same : ∀ entry ∈ paths, (entry.1, hoistToPath entry.2) = id entry := fun entry member =>
    Prod.ext rfl (hoistToPath_of_isSettled (settled entry member))
  exact (List.map_congr_left same).trans (List.map_id paths)

variable {paths : Entries Element}

theorem mem_urlsOfPaths (texts : ∀ entry ∈ paths, operationsHaveTexts entry.2) :
    url ∈ urlsOfPaths paths ↔ ∃ entry ∈ paths, url ∈ urlsOf (operations entry.2) := by
  rw [urlsOfPaths_eq, mem_foldl_addNew, or_iff_right List.not_mem_nil, List.mem_flatMap]
  intro url member
  obtain ⟨entry, inside, among⟩ := List.mem_flatMap.mp member
  exact isText_of_urlsOf (texts entry inside) among

theorem operationsHaveTexts_hoistToPath (texts : operationsHaveTexts item) :
    operationsHaveTexts (hoistToPath item) := by
  rcases hoistToPath_cases item with settled | ⟨url, -, -, moved⟩
  · rwa [hoistToPath_of_isSettled settled]
  · unfold operationsHaveTexts
    rw [moved, operations_put, operations_mapOperations, List.all_map, List.all_eq_true]
    intro operation _
    change (urls (clear operation)).all _ = true
    rw [urls_clear, List.all_nil]

theorem operationsHaveTexts_mapEntries (texts : ∀ entry ∈ paths, operationsHaveTexts entry.2) :
    ∀ entry ∈ mapEntries hoistToPath paths, operationsHaveTexts entry.2 := by
  intro entry member
  obtain ⟨before, inside, rfl⟩ := List.mem_map.mp member
  exact operationsHaveTexts_hoistToPath (texts before inside)

/-- Where the operations that keep a server have one that all paths have, the paths that have it
from their operations add no other address. -/
theorem urlsOfPaths_of_mapEntries (texts : ∀ entry ∈ paths, operationsHaveTexts entry.2)
    (found : urlsOfPaths (mapEntries hoistToPath paths) = [url])
    (shared : ∀ entry ∈ mapEntries hoistToPath paths, hasSole url entry.2) :
    urlsOfPaths paths = [url] := by
  have movedTexts := operationsHaveTexts_mapEntries texts
  have kept {other : Value} :
      other = url ↔
        ∃ entry ∈ mapEntries hoistToPath paths, other ∈ urlsOf (operations entry.2) := by
    rw [← mem_urlsOfPaths movedTexts, found, List.mem_singleton]
  obtain ⟨_, inside, among⟩ := kept.mp rfl
  have text := isText_of_urlsOf (movedTexts _ inside) among
  rw [urlsOfPaths_eq]
  refine foldl_addNew_eq_singleton text (fun other member => ?_) fun none => ?_
  · obtain ⟨entry, inside, among⟩ := List.mem_flatMap.mp member
    have mapped : (entry.1, hoistToPath entry.2) ∈ mapEntries hoistToPath paths :=
      List.mem_map_of_mem inside
    rcases hoistToPath_cases entry.2 with settled | ⟨own, sole, -, moved⟩
    · rw [← hoistToPath_of_isSettled settled] at among
      exact kept.mpr ⟨_, mapped, among⟩
    · rw [sole, List.mem_singleton] at among
      obtain ⟨put, same, served⟩ := urls_of_hasSole (shared _ mapped)
      rw [moved, urls_put, List.cons.injEq, Option.some.injEq] at served
      rw [among, served.1, (Value.same_iff_of_text (.inl text)).mp same]
  · obtain ⟨entry, before, rfl⟩ := List.mem_map.mp inside
    rcases hoistToPath_cases entry.2 with settled | ⟨_, -, -, moved⟩
    · dsimp only at among
      rw [hoistToPath_of_isSettled settled] at among
      exact List.ne_nil_of_mem (List.mem_flatMap.mpr ⟨entry, before, among⟩) none
    · dsimp only at among
      rw [moved, operations_put, operations_mapOperations, urlsOf_map_clear] at among
      cases among

/-- Moving servers up a second time changes nothing. -/
theorem hoist_hoist (texts : ∀ entry ∈ document.table "paths", operationsHaveTexts entry.2) :
    hoist (hoist document) = hoist document := by
  have settled : ∀ entry ∈ mapEntries hoistToPath (document.table "paths"), IsSettled entry.2 := by
    intro entry member
    obtain ⟨before, -, rfl⟩ := List.mem_map.mp member
    exact isSettled_hoistToPath before.2
  rcases hoist_cases document with ⟨same, apart⟩ | ⟨url, -, some, -, moved⟩
  · rw [same]
    rcases hoist_cases (document.set "paths"
      (.table (mapEntries hoistToPath (document.table "paths")))) with
      ⟨again, -⟩ | ⟨url, found, some, shared, -⟩
    · rw [again, set_set, table_set_self, mapEntries_hoistToPath settled]
    · rw [table_set_self] at found some shared
      rw [mapEntries_hoistToPath settled] at shared
      refine (apart url (urlsOfPaths_of_mapEntries texts found shared) (fun none => ?_) shared).elim
      exact some (congrArg (mapEntries hoistToPath) none)
  · have cleared : ∀ entry ∈ mapEntries clear (mapEntries hoistToPath (document.table "paths")),
        IsSettled entry.2 := by
      intro entry member
      obtain ⟨before, inside, rfl⟩ := List.mem_map.mp member
      exact isSettled_clear (settled before inside)
    have holds : (hoist document).get? "paths" = Option.some (.table
        (mapEntries clear (mapEntries hoistToPath (document.table "paths")))) := by
      rw [moved, put, get?_set_of_ne _ _ (by decide), get?_set_self]
    have paths : (hoist document).table "paths" =
        mapEntries clear (mapEntries hoistToPath (document.table "paths")) :=
      table_of_get? holds
    rcases hoist_cases (hoist document) with ⟨again, -⟩ | ⟨_, -, _, shared, -⟩
    · rw [again, paths, mapEntries_hoistToPath cleared, set_of_get? holds]
    · rw [paths, mapEntries_hoistToPath cleared] at shared
      obtain ⟨entry, member⟩ := List.exists_mem_of_ne_nil _ some
      have sole := shared _ (List.mem_map_of_mem (List.mem_map_of_mem member))
      obtain ⟨_, -, served⟩ := urls_of_hasSole sole
      rw [urls_clear] at served
      cases served

/-! ## Comparing addresses -/

section Comparing

variable {known added : List Value}

theorem isAmong?_of_text (text : url.isText) (others : List Value) :
    isAmong? url others = some (others.any url.same) := by
  induction others with
  | nil => rfl
  | cons other rest ih =>
      rw [isAmong?, Value.same?_of_text text, List.any_cons]
      cases url.same other with
      | true => rfl
      | false => exact ih

theorem addNew?_of_text (text : url.isText) : addNew? known url = some (addNew known url) := by
  unfold addNew? addNew
  rw [isAmong?_of_text text]
  cases known.any url.same <;> rfl

theorem foldlM_addNew? (texts : ∀ url ∈ added, url.isText) :
    added.foldlM addNew? known = some (added.foldl addNew known) := by
  induction added generalizing known with
  | nil => rfl
  | cons first rest ih =>
      rw [List.forall_mem_cons] at texts
      rw [List.foldlM_cons, addNew?_of_text texts.1]
      exact ih texts.2

theorem isSome_haveSole? (text : url.isText) (elements : List Element) :
    (haveSole? url elements).isSome := by
  induction elements with
  | nil => rfl
  | cons element rest ih =>
      unfold haveSole?
      split
      · rfl
      next other _ =>
        rw [Value.same?_of_text text]
        cases url.same other with
        | true => exact ih
        | false => rfl

theorem addPath?_eq (texts : operationsHaveTexts item) :
    addPath? known item = some ((urlsOf (operations item)).foldl addNew known) := by
  have own : ((operations item).filterMap soleUrl?).foldlM addNew? [] =
      some (urlsOf (operations item)) := by
    refine foldlM_addNew? fun url member => ?_
    obtain ⟨operation, inside, sole⟩ := List.mem_filterMap.mp member
    exact isText_of_soleUrl? (List.all_eq_true.mp texts operation inside) sole
  have others : (urlsOf (operations item)).foldlM addNew? known = _ :=
    foldlM_addNew? fun url => isText_of_urlsOf texts
  unfold addPath?
  simp only [own, Option.bind_eq_bind, Option.bind_some]
  split
  next url found =>
    have text : url.isText := isText_of_urlsOf texts (found ▸ List.mem_singleton_self url)
    obtain ⟨_, compared⟩ := Option.isSome_iff_exists.mp
      (isSome_haveSole? text (operations item))
    rw [compared]
    exact found ▸ others
  next => exact others

theorem foldlM_addPath? (texts : ∀ entry ∈ paths, operationsHaveTexts entry.2) :
    (paths.map Prod.snd).foldlM addPath? known =
      some (paths.foldl (fun urls entry => (urlsOf (operations entry.2)).foldl addNew urls)
        known) := by
  induction paths generalizing known with
  | nil => rfl
  | cons first rest ih =>
      rw [List.forall_mem_cons] at texts
      rw [List.map_cons, List.foldlM_cons, addPath?_eq texts.1]
      exact ih texts.2

end Comparing

/-- Addresses that are texts can be compared. -/
theorem areComparable_of_texts
    (texts : ∀ entry ∈ document.table "paths", operationsHaveTexts entry.2) :
    areComparable document := by
  have found : ((document.table "paths").map Prod.snd).foldlM addPath? [] =
      some (urlsOfPaths (document.table "paths")) := foldlM_addPath? texts
  unfold areComparable
  dsimp only
  rw [found]
  split
  next missing => cases missing
  next url sole =>
    refine isSome_haveSole? ?_ _
    have member : url ∈ urlsOfPaths (document.table "paths") :=
      Option.some.inj sole ▸ List.mem_singleton_self url
    obtain ⟨entry, inside, among⟩ := (mem_urlsOfPaths texts).mp member
    exact isText_of_urlsOf (texts entry inside) among
  next => rfl

theorem hoistChecked_of_texts
    (texts : ∀ entry ∈ document.table "paths", operationsHaveTexts entry.2) :
    hoistChecked document = .ok (hoist document) :=
  if_pos (areComparable_of_texts texts)

theorem operationsHaveTexts_of_throughout (texts : hasTextsThroughout document) :
    ∀ entry ∈ document.table "paths", operationsHaveTexts entry.2 := fun entry member =>
  (Bool.and_eq_true_iff.mp
    (List.all_eq_true.mp (Bool.and_eq_true_iff.mp texts).2 entry member)).2

theorem operationsHaveTexts_hoist
    (texts : ∀ entry ∈ document.table "paths", operationsHaveTexts entry.2) :
    ∀ entry ∈ (hoist document).table "paths", operationsHaveTexts entry.2 := by
  have moved := operationsHaveTexts_mapEntries texts
  rcases hoist_cases document with ⟨same, -⟩ | ⟨url, -, -, -, same⟩
  · rwa [same, table_set_self]
  · rw [same, put, table_set_of_ne _ _ (by decide), table_set_self]
    intro entry member
    obtain ⟨before, inside, rfl⟩ := List.mem_map.mp member
    have kept := moved before inside
    unfold operationsHaveTexts at kept ⊢
    dsimp only
    rwa [operations_clear]

/-- Moving servers up succeeds in a document all of whose addresses are texts, keeps for every
operation of every path the addresses that serve it, and changes nothing when it is done again. -/
theorem hoistChecked_preserves_routes (texts : hasTextsThroughout document) :
    ∃ hoisted, hoistChecked document = .ok hoisted ∧ routes hoisted = routes document ∧
      hoistChecked hoisted = .ok hoisted := by
  have operationTexts := operationsHaveTexts_of_throughout texts
  have again := operationsHaveTexts_hoist operationTexts
  refine ⟨hoist document, hoistChecked_of_texts operationTexts, routes_hoist texts, ?_⟩
  rw [hoistChecked_of_texts again, hoist_hoist operationTexts]

/-- A document with a path whose operations share a server, and one that has this server itself. -/
def sharedHost : Element :=
  let host := Value.string "https://library.example.com"
  let operation := put host (.empty .operation)
  let books := ((Element.empty .pathItem).set "get" (.one operation)).set "post" (.one operation)
  let shelves := put host ((Element.empty .pathItem).set "get" (.one (.empty .operation)))
  (Element.empty .document).set "paths"
    (.table [(.string "/v1/books", books), (.string "/v1/shelves", shelves)])

theorem sharedHost_preserves_routes : hasTextsThroughout sharedHost ∧
    ∃ hoisted, hoistChecked sharedHost = .ok hoisted ∧ routes hoisted = routes sharedHost ∧
      hoistChecked hoisted = .ok hoisted :=
  ⟨by decide, hoistChecked_preserves_routes (by decide)⟩

example : urls sharedHost = [] ∧
    urls (hoist sharedHost) = [some (.string "https://library.example.com")] := ⟨rfl, rfl⟩

end Servers

end ServiceDoc
