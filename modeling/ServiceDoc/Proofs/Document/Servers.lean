import ServiceDoc.Document.Servers
import ServiceDoc.Proofs.Document.Component
import ServiceDoc.Proofs.OpenApi.Fields
import ServiceDoc.Proofs.Value.Text
import Mathlib.Logic.Relation

/-!
# Hoisted servers serve what they served

The addresses that serve an operation are those of its own servers, or else those of its path, or
else those of the document. Moving servers up keeps them, whatever values they are: an address can
only be replaced by one that is the same.
-/

namespace ServiceDoc

open Element

/-! ## Operations of a path -/

namespace PathItem

/-- A path with the operation of one verb changed. -/
def changeVerb (change : Element → Element) (item : Element) (verb : String) : Element :=
  match item.one? verb with
  | some operation => item.set verb (.one (change operation))
  | none => item

variable {change : Element → Element} {item : Element}

theorem get?_changeVerb_of_ne {verb key : String} (differ : key ≠ verb) :
    (changeVerb change item verb).get? key = item.get? key := by
  unfold changeVerb
  split
  · exact get?_set_of_ne _ _ differ
  · rfl

theorem one?_changeVerb_self {verb : String} :
    (changeVerb change item verb).one? verb = (item.one? verb).map change := by
  unfold changeVerb
  split
  next operation found => rw [one?_set_self, found, Option.map_some]
  next missing => rw [missing, Option.map_none]

theorem get?_foldl_changeVerb {verbs : List String} {key : String} (other : key ∉ verbs) :
    (verbs.foldl (changeVerb change) item).get? key = item.get? key := by
  induction verbs generalizing item with
  | nil => rfl
  | cons verb rest ih =>
      rw [List.mem_cons, not_or] at other
      rw [List.foldl_cons, ih other.2, get?_changeVerb_of_ne other.1]

theorem one?_congr {element other : Element} {key : String}
    (same : element.get? key = other.get? key) : element.one? key = other.one? key := by
  unfold one?
  rw [same]

theorem one?_foldl_changeVerb {verbs : List String} (distinct : verbs.Nodup) {verb : String}
    (member : verb ∈ verbs) :
    (verbs.foldl (changeVerb change) item).one? verb = (item.one? verb).map change := by
  induction verbs generalizing item with
  | nil => cases member
  | cons first rest ih =>
      rw [List.nodup_cons] at distinct
      rw [List.foldl_cons]
      rcases List.mem_cons.mp member with rfl | later
      · rw [one?_congr (get?_foldl_changeVerb distinct.1), one?_changeVerb_self]
      · have differ : verb ≠ first := fun same => distinct.1 (same ▸ later)
        rw [ih distinct.2 later, one?_congr (get?_changeVerb_of_ne differ)]

theorem one?_mapOperations {verb : String} (member : verb ∈ Kind.verbs) :
    (mapOperations change item).one? verb = (item.one? verb).map change :=
  one?_foldl_changeVerb (by decide) member

theorem operations_mapOperations :
    operations (mapOperations change item) = (operations item).map change := by
  unfold operations
  rw [List.map_filterMap]
  exact List.filterMap_congr fun verb member => one?_mapOperations member

/-- The operations of a path depend on its verbs alone. -/
theorem operations_set {key : String} (other : key ∉ Kind.verbs) (content : Content) :
    operations (item.set key content) = operations item :=
  List.filterMap_congr fun _ member =>
    one?_set_of_ne item content fun same => other (same ▸ member)

theorem mem_operations {operation : Element} :
    operation ∈ operations item ↔ ∃ verb ∈ Kind.verbs, item.one? verb = some operation :=
  List.mem_filterMap

end PathItem

namespace Servers

open PathItem

/-! ## Addresses -/

/-- The addresses of the servers of an element, in order. -/
def urls (element : Element) : List (Option Value) :=
  (element.many "servers").map fun server => server.value? "url"

/-- The addresses that hold for an element: its own if it has servers, or else those that hold for
what it stands in. -/
def urlsWithin (outer : List (Option Value)) (element : Element) : List (Option Value) :=
  match urls element with
  | [] => outer
  | own => own

/-- The addresses that serve an operation of a path of a document. -/
def serving (document item operation : Element) : List (Option Value) :=
  urlsWithin (urlsWithin (urls document) item) operation

/-- For every path and verb, what serves the operation there, if there is one. -/
def routes (document : Element) : List (Scalar × List (Option (List (Option Value)))) :=
  (document.table "paths").map fun entry =>
    (entry.1, Kind.verbs.map fun verb => (entry.2.one? verb).map (serving document entry.2))

variable {document item element : Element} {url : Value} {outer : List (Option Value)}

@[simp] theorem urls_clear : urls (clear element) = [] := by
  unfold urls clear
  rw [many_set_self, List.map_nil]

@[simp] theorem urls_put : urls (put url element) = [some url] := by
  unfold urls put
  rw [many_set_self, List.map_singleton, value?_set_self]

@[simp] theorem urlsWithin_clear : urlsWithin outer (clear element) = outer := by
  unfold urlsWithin
  rw [urls_clear]

@[simp] theorem urlsWithin_put : urlsWithin outer (put url element) = [some url] := by
  unfold urlsWithin
  rw [urls_put]

@[simp] theorem clear_clear : clear (clear element) = clear element := set_set _ _ _ _

theorem soleUrl?_eq_some : soleUrl? element = some url ↔ urls element = [some url] := by
  unfold soleUrl? urls
  split
  next server sole => rw [sole, List.map_singleton, List.cons.injEq, and_iff_left rfl]
  next several =>
    constructor
    · intro found
      cases found
    · intro same
      obtain ⟨server, sole, -⟩ := List.map_eq_singleton_iff.mp same
      exact (several server sole).elim

@[simp] theorem soleUrl?_clear : soleUrl? (clear element) = none :=
  Option.eq_none_iff_forall_ne_some.mpr fun url found => by
    rw [soleUrl?_eq_some, urls_clear] at found
    cases found

theorem urls_of_hasSole (sole : hasSole url element) :
    ∃ other, url.same other ∧ urls element = [some other] := by
  have shared := (Bool.and_eq_true_iff.mp sole).2
  cases found : soleUrl? element with
  | none =>
      rw [found] at shared
      cases shared
  | some other =>
      rw [found] at shared
      exact ⟨other, shared, soleUrl?_eq_some.mp found⟩

/-! ## What moving up does -/

/-- Lists of addresses are alike if they are one, or go over into each other when a single address
is put for one that is the same. -/
def Alike : List (Option Value) → List (Option Value) → Prop :=
  Relation.EqvGen fun before after =>
    ∃ url other : Value, url.same other ∧ before = [some url] ∧ after = [some other]

/-- Lists of texts are alike only if they are one. -/
theorem Alike.eq_of_texts {before after : List (Option Value)} (alike : Alike before after)
    (texts : ∀ url, some url ∈ before → url.isText) : before = after := by
  have carried : before = after ∨ ∃ url other : Value, before = [some url] ∧
      after = [some other] ∧ !url.isText ∧ !other.isText := by
    clear texts
    induction alike with
    | rel _ _ step =>
        obtain ⟨url, other, same, rfl, rfl⟩ := step
        by_cases text : url.isText ∨ other.isText
        · exact .inl (by rw [(Value.same_iff_of_text text).mp same])
        · simp only [not_or, Bool.not_eq_true, ← Bool.not_eq_true'] at text
          exact .inr ⟨url, other, rfl, rfl, text⟩
    | refl _ => exact .inl rfl
    | symm _ _ _ ih =>
        rcases ih with rfl | ⟨url, other, first, second, left, right⟩
        · exact .inl rfl
        · exact .inr ⟨other, url, second, first, right, left⟩
    | trans _ _ _ _ _ first second =>
        rcases first with rfl | ⟨url, middle, left, rfl, leftText, middleText⟩
        · exact second
        · rcases second with rfl | ⟨_, other, -, right, -, rightText⟩
          · exact .inr ⟨url, middle, left, rfl, leftText, middleText⟩
          · exact .inr ⟨url, other, left, right, leftText, rightText⟩
  rcases carried with same | ⟨url, _, rfl, -, noText, -⟩
  · exact same
  · rw [texts url (List.mem_singleton_self _)] at noText
    cases noText

/-- A path has the operations that another has, but for where their servers stand: what serves them
is alike, within what holds for the one path and for the other. -/
def Reroutes (outer inner : List (Option Value)) (item moved : Element) : Prop :=
  ∀ verb ∈ Kind.verbs, Option.Rel (fun operation other =>
    clear operation = clear other ∧
      Alike (urlsWithin (urlsWithin outer item) operation)
        (urlsWithin (urlsWithin inner moved) other)) (item.one? verb) (moved.one? verb)

namespace Reroutes

variable {inner innermost : List (Option Value)} {moved last : Element}

theorem refl (outer : List (Option Value)) (item : Element) : Reroutes outer outer item item := by
  intro verb _
  cases item.one? verb with
  | none => exact .none
  | some operation => exact .some ⟨rfl, .refl _⟩

theorem trans (first : Reroutes outer inner item moved)
    (second : Reroutes inner innermost moved last) : Reroutes outer innermost item last := by
  intro verb member
  have before := first verb member
  have after := second verb member
  generalize item.one? verb = operation, moved.one? verb = between,
    last.one? verb = other at before after ⊢
  cases before with
  | none =>
      cases after
      exact .none
  | some before =>
      cases after with
      | some after =>
          exact .some ⟨before.1.trans after.1, .trans _ _ _ before.2 after.2⟩

end Reroutes

/-- The operations of a path do not share a server of their own. -/
def IsSettled (item : Element) : Prop :=
  ∀ url, urlsOf (operations item) = [url] → ¬ ∀ operation ∈ operations item, hasSole url operation

theorem hoistToPath_of_isSettled (settled : IsSettled item) : hoistToPath item = item := by
  unfold hoistToPath
  dsimp only
  split
  next url found => rw [if_neg fun shared => settled url found (List.all_eq_true.mp shared)]
  next => rfl

/-- A path keeps its servers, or all its operations have the server that it gets. -/
theorem hoistToPath_cases (item : Element) : IsSettled item ∨
    ∃ url, urlsOf (operations item) = [url] ∧ (∀ operation ∈ operations item,
      hasSole url operation) ∧ hoistToPath item = put url (mapOperations clear item) := by
  refine or_iff_not_imp_left.mpr fun shared => ?_
  unfold IsSettled at shared
  push Not at shared
  obtain ⟨url, found, shared⟩ := shared
  refine ⟨url, found, shared, ?_⟩
  unfold hoistToPath
  dsimp only
  rw [found]
  exact if_pos (List.all_eq_true.mpr shared)

theorem one?_put {verb : String} (member : verb ∈ Kind.verbs) :
    (put url item).one? verb = item.one? verb := by
  refine one?_set_of_ne item _ fun same => ?_
  subst same
  revert member
  decide

theorem one?_clear {verb : String} (member : verb ∈ Kind.verbs) :
    (clear item).one? verb = item.one? verb := by
  refine one?_set_of_ne item _ fun same => ?_
  subst same
  revert member
  decide

theorem reroutes_hoistToPath (outer : List (Option Value)) (item : Element) :
    Reroutes outer outer item (hoistToPath item) := by
  rcases hoistToPath_cases item with settled | ⟨url, -, shared, moved⟩
  · rw [hoistToPath_of_isSettled settled]
    exact .refl outer item
  · intro verb member
    rw [moved, one?_put member, one?_mapOperations member]
    cases found : item.one? verb with
    | none => exact .none
    | some operation =>
        obtain ⟨other, same, own⟩ :=
          urls_of_hasSole (shared operation (mem_operations.mpr ⟨verb, member, found⟩))
        refine .some ⟨clear_clear.symm, ?_⟩
        have served : urlsWithin (urlsWithin outer item) operation = [some other] := by
          rw [urlsWithin, own]
        rw [served, urlsWithin_clear, urlsWithin_put]
        exact .symm _ _ (.rel _ _ ⟨url, other, same, rfl, rfl⟩)

/-- The server of a path that the document gets is not missed. -/
theorem reroutes_clear (sole : hasSole url item) : Reroutes outer [some url] item (clear item) := by
  intro verb member
  rw [one?_clear member]
  cases item.one? verb with
  | none => exact .none
  | some operation =>
      refine .some ⟨rfl, ?_⟩
      rw [urlsWithin_clear]
      unfold urlsWithin
      cases urls operation with
      | cons _ _ => exact .refl _
      | nil =>
          obtain ⟨other, same, own⟩ := urls_of_hasSole sole
          rw [own]
          exact .symm _ _ (.rel _ _ ⟨url, other, same, rfl, rfl⟩)

/-- The paths of a document keep their servers once those of operations are moved up, or all paths
have the server that the document gets. -/
theorem hoist_cases (document : Element) :
    (hoist document =
        document.set "paths" (.table (mapEntries hoistToPath (document.table "paths"))) ∧
      ∀ url, urlsOfPaths (document.table "paths") = [url] → document.table "paths" ≠ [] →
        ¬ ∀ entry ∈ mapEntries hoistToPath (document.table "paths"), hasSole url entry.2) ∨
    ∃ url, urlsOfPaths (document.table "paths") = [url] ∧ document.table "paths" ≠ [] ∧
      (∀ entry ∈ mapEntries hoistToPath (document.table "paths"), hasSole url entry.2) ∧
      hoist document = put url (document.set "paths"
        (.table (mapEntries clear (mapEntries hoistToPath (document.table "paths"))))) := by
  unfold hoist
  dsimp only
  split
  next url found =>
    split
    next shared =>
      rw [Bool.and_eq_true_iff, Bool.not_eq_true', List.all_eq_true] at shared
      exact .inr ⟨url, found, List.isEmpty_eq_false_iff.mp shared.1, shared.2, rfl⟩
    next differ =>
      refine .inl ⟨rfl, fun other same some all => differ ?_⟩
      obtain rfl : url = other := (List.cons.inj (found.symm.trans same)).1
      rw [Bool.and_eq_true_iff, Bool.not_eq_true', List.all_eq_true]
      exact ⟨List.isEmpty_eq_false_iff.mpr some, all⟩
  next several => exact .inl ⟨rfl, fun url found => (several url found).elim⟩

theorem urls_set {key : String} (other : "servers" ≠ key) (content : Content) :
    urls (element.set key content) = urls element := by
  unfold urls
  rw [many_set_of_ne _ _ other]

/-- Moving servers up keeps the paths and their operations, and what serves them. -/
theorem reroutes_hoist (document : Element) :
    List.Forall₂ (fun entry moved => entry.1 = moved.1 ∧
        Reroutes (urls document) (urls (hoist document)) entry.2 moved.2)
      (document.table "paths") ((hoist document).table "paths") := by
  rcases hoist_cases document with ⟨same, -⟩ | ⟨url, -, -, shared, moved⟩
  · rw [same, table_set_self, urls_set (by decide)]
    refine List.forall₂_map_right_iff.mpr (List.forall₂_same.mpr fun entry _ => ⟨rfl, ?_⟩)
    exact reroutes_hoistToPath _ _
  · rw [moved, urls_put, put, table_set_of_ne _ _ (by decide), table_set_self]
    unfold mapEntries at shared ⊢
    rw [List.map_map]
    refine List.forall₂_map_right_iff.mpr (List.forall₂_same.mpr fun entry member => ⟨rfl, ?_⟩)
    have sole := shared _ (List.mem_map_of_mem member)
    exact (reroutes_hoistToPath (urls document) entry.2).trans (reroutes_clear sole)

end Servers

end ServiceDoc
