import ServiceDoc.Proofs.Value.Sorting
import ServiceDoc.Proofs.Value.Text
import Mathlib.Data.List.Lex

/-!
# Sorting by texts

Texts have a total order, so that things whose keys are texts have one sorted order in which things
of one key keep theirs, and every way of sorting finds it. Things with texts and other values for
keys have no order, and every way of sorting fails.
-/

namespace ServiceDoc

theorem lessCodes_iff {first second : List Nat} :
    lessCodes first second = true ↔ first < second := by
  induction first generalizing second with
  | nil => cases second <;> simp [lessCodes]
  | cons x xs ih =>
      cases second with
      | nil => simp [lessCodes]
      | cons y ys => simp [lessCodes, List.cons_lt_cons_iff, ih]

namespace Value

/-- The code points of a text. -/
def codes? : Value → Option (List Nat)
  | scalar value => value.codes?
  | _ => none

theorem isText_eq (value : Value) : value.isText = value.codes?.isSome := by
  cases value <;> rfl

/-- What a thing is sorted by, if it is a text. -/
def rank (value : Value) : List Nat := value.codes?.getD []

variable {a b : Value}

theorem less_of_text (first : a.isText) (second : b.isText) :
    a.less b = .ok (decide (a.rank < b.rank)) := by
  cases a with
  | scalar x =>
      cases b with
      | scalar y =>
          obtain ⟨codes, found⟩ := Option.isSome_iff_exists.mp first
          obtain ⟨others, known⟩ := Option.isSome_iff_exists.mp second
          have ordered : x.less? y = some (lessCodes codes others) := by
            unfold Scalar.less?
            rw [found, known]
          have ranks : (scalar x).rank = codes ∧ (scalar y).rank = others := by
            simp [rank, codes?, found, known]
          have decided : lessCodes codes others = decide (codes < others) := by
            rw [Bool.eq_iff_iff, lessCodes_iff, decide_eq_true_iff]
          simp [less, lessWithin, ordered, ranks, decided]
      | _ => cases second
  | _ => cases first

/-- Only texts have an order with texts. -/
theorem isText_of_less {isLess : Bool} (ordered : a.less b = .ok isLess) :
    a.isText = b.isText := by
  cases a with
  | scalar x =>
      cases b with
      | scalar y =>
          cases first : x.codes? <;> cases second : y.codes? <;>
            simp [less, lessWithin, Scalar.less?, isText, first, second] at ordered ⊢
      | _ => simp [less, lessWithin] at ordered
  | _ =>
      cases b with
      | scalar y => simp [less, lessWithin] at ordered
      | _ => rfl

end Value

namespace Sorting

variable {α : Type}

/-- A list is another in order, where things of one rank keep theirs. -/
structure Sorts (rank : α → List Nat) (things sorted : List α) : Prop where
  ordered : sorted.Pairwise fun a b => rank a ≤ rank b
  stable : ∀ codes, sorted.filter (rank · = codes) = things.filter (rank · = codes)

variable {rank : α → List Nat} {things others sorted : List α}

/-- There is one sorted order. -/
theorem Sorts.unique {again : List α} (first : Sorts rank things sorted)
    (second : Sorts rank things again) : sorted = again := by
  have same := fun codes => (first.stable codes).trans (second.stable codes).symm
  have ordered := first.ordered
  have reordered := second.ordered
  clear first second
  have among {left right : List α} {a : α}
      (same : ∀ codes, left.filter (rank · = codes) = right.filter (rank · = codes))
      (member : a ∈ left) : a ∈ right := by
    have held : a ∈ left.filter (rank · = rank a) :=
      List.mem_filter.mpr ⟨member, decide_eq_true rfl⟩
    exact (List.mem_filter.mp (same _ ▸ held)).1
  induction sorted generalizing again with
  | nil =>
      cases again with
      | nil => rfl
      | cons b rest =>
          exact (List.not_mem_nil (among (fun codes => (same codes).symm) (.head _))).elim
  | cons a rest ih =>
      cases again with
      | nil => exact (List.not_mem_nil (among same (.head _))).elim
      | cons b more =>
          obtain ⟨least, later_ordered⟩ := List.pairwise_cons.mp ordered
          obtain ⟨lowest, later_reordered⟩ := List.pairwise_cons.mp reordered
          have below : rank a ≤ rank b := by
            rcases List.mem_cons.mp (among (fun codes => (same codes).symm) (.head _)) with one | later
            · exact one ▸ le_refl _
            · exact least b later
          have above : rank b ≤ rank a := by
            rcases List.mem_cons.mp (among same (.head _)) with one | later
            · exact one ▸ le_refl _
            · exact lowest a later
          have equal := le_antisymm below above
          have heads := same (rank a)
          rw [List.filter_cons, List.filter_cons, if_pos (decide_eq_true rfl),
            if_pos (decide_eq_true equal.symm)] at heads
          obtain rfl := (List.cons.inj heads).1
          refine congrArg (a :: ·) (ih (fun codes => ?_) later_ordered later_reordered)
          have tails := same codes
          rw [List.filter_cons, List.filter_cons] at tails
          split at tails
          · exact (List.cons.inj tails).2
          · exact tails

/-! ## Ways of sorting -/

variable {less : α → α → Except Disorder Bool}

/-- Things are compared by their ranks. -/
def Compares (less : α → α → Except Disorder Bool) (rank : α → List Nat) (things : List α) : Prop :=
  ∀ a ∈ things, ∀ b ∈ things, less a b = .ok (decide (rank a < rank b))

theorem sorts_mergeSort (things : List α) :
    Sorts rank things (things.mergeSort fun a b => !decide (rank b < rank a)) := by
  have trans (a b c : α) (first : (!decide (rank b < rank a)) = true)
      (second : (!decide (rank c < rank b)) = true) : (!decide (rank c < rank a)) = true := by
    simp only [Bool.not_eq_true', decide_eq_false_iff_not, not_lt] at first second ⊢
    exact first.trans second
  have total (a b : α) : (!decide (rank b < rank a) || !decide (rank a < rank b)) = true := by
    simp only [Bool.or_eq_true, Bool.not_eq_true', decide_eq_false_iff_not, not_lt]
    exact le_total _ _
  refine ⟨?_, fun codes => ?_⟩
  · refine (List.pairwise_mergeSort trans total things).imp fun {a b} ordered => ?_
    simpa only [Bool.not_eq_true', decide_eq_false_iff_not, not_lt] using ordered
  · have equal : (things.filter (rank · = codes)).Pairwise
        fun a b => (!decide (rank b < rank a)) = true := by
      refine List.pairwise_of_forall_mem_list fun a first b second => ?_
      have one := of_decide_eq_true (List.mem_filter.mp first).2
      have other := of_decide_eq_true (List.mem_filter.mp second).2
      simp [one, other]
    have kept := (List.sublist_mergeSort trans total equal List.filter_sublist).filter
      (rank · = codes)
    rw [List.filter_filter] at kept
    simp only [Bool.and_self] at kept
    exact (kept.eq_of_length
      ((List.mergeSort_perm things _).filter (rank · = codes)).length_eq.symm).symm

/-- Things fall, each before the one in front of it, or none of them is. -/
def Goes (rank : α → List Nat) (falls : Bool) (things : List α) : Prop :=
  things.Pairwise fun a b => decide (rank b < rank a) = falls

theorem Goes.cons {falls : Bool} {first second : α} (rest : Goes rank falls (second :: things))
    (goes : decide (rank second < rank first) = falls) :
    Goes rank falls (first :: second :: things) := by
  refine List.pairwise_cons.mpr ⟨fun other member => ?_, rest⟩
  rcases List.mem_cons.mp member with rfl | later
  · exact goes
  · have further := (List.pairwise_cons.mp rest).1 other later
    cases falls with
    | true =>
        rw [decide_eq_true_iff] at goes further ⊢
        exact further.trans goes
    | false =>
        rw [decide_eq_false_iff_not, not_lt] at goes further ⊢
        exact goes.trans further

/-- Things that do not fall are sorted, and things that fall are when they are turned round. -/
theorem Goes.sorts {falls : Bool} (goes : Goes rank falls things) :
    Sorts rank things (if falls then things.reverse else things) := by
  cases falls with
  | false =>
      refine ⟨goes.imp fun {a b} ordered => ?_, fun _ => rfl⟩
      exact not_lt.mp (of_decide_eq_false ordered)
  | true =>
      rw [if_pos rfl]
      refine ⟨List.pairwise_reverse.mpr (goes.imp fun {a b} ordered => ?_), fun codes => ?_⟩
      · exact (of_decide_eq_true ordered).le
      · have single : (things.filter (rank · = codes)).length ≤ 1 := by
          by_contra several
          obtain ⟨a, b, rest, found⟩ : ∃ a b rest,
              things.filter (rank · = codes) = a :: b :: rest := by
            match held : things.filter (rank · = codes) with
            | [] | [_] => simp [held] at several
            | a :: b :: rest => exact ⟨a, b, rest, rfl⟩
          have falling := goes.sublist (List.filter_sublist (p := (rank · = codes)))
          have equal (c : α) (member : c ∈ things.filter (rank · = codes)) : rank c = codes :=
            of_decide_eq_true (List.mem_filter.mp member).2
          rw [found] at falling equal
          have less := of_decide_eq_true ((List.pairwise_cons.mp falling).1 b (.head _))
          rw [equal a (.head _), equal b (.tail _ (.head _))] at less
          exact lt_irrefl _ less
        rw [List.filter_reverse]
        match things.filter (rank · = codes), single with
        | [], _ | [_], _ => rfl

/-- The run at the start goes one way. -/
theorem splitRun_of_compares {falls : Bool} {last : α}
    (compares : Compares less rank (last :: things)) :
    ∃ run others, splitRun less falls last things = .ok (run, others) ∧
      Goes rank falls (last :: run) := by
  induction things generalizing last with
  | nil => exact ⟨[], [], rfl, List.pairwise_singleton _ _⟩
  | cons next rest ih =>
      unfold splitRun
      rw [compares next (.tail _ (.head _)) last (.head _)]
      by_cases goes : decide (rank next < rank last) = falls
      · obtain ⟨run, others, split, ordered⟩ := ih fun a inside b member =>
          compares a (.tail _ inside) b (.tail _ member)
        refine ⟨next :: run, others, ?_, ordered.cons goes⟩
        change (if (decide (rank next < rank last) == falls) = true then _ else _) = _
        rw [if_pos (beq_iff_eq.mpr goes), split]
        rfl
      · refine ⟨[], next :: rest, ?_, List.pairwise_singleton _ _⟩
        change (if (decide (rank next < rank last) == falls) = true then _ else _) = _
        rw [if_neg fun same => goes (beq_iff_eq.mp same)]
        rfl

/-- What holds up to a place and from it on by position holds by membership. -/
theorem bounds_of_positions {new : α} {ordered : List α} {place : Nat}
    (below : ∀ i (_ : i < ordered.length), i < place → rank ordered[i] ≤ rank new)
    (above : ∀ i (_ : i < ordered.length), place ≤ i → rank new < rank ordered[i]) :
    (∀ a ∈ ordered.take place, rank a ≤ rank new) ∧
      ∀ a ∈ ordered.drop place, rank new < rank a := by
  constructor
  · intro a member
    obtain ⟨i, inside, rfl⟩ := List.mem_take_iff_getElem.mp member
    exact below i (by omega) (by omega)
  · intro a member
    obtain ⟨i, inside, rfl⟩ := List.mem_drop_iff_getElem.mp member
    exact above _ _ (by omega)

/-- The place of a new thing is behind those that do not come after it. -/
theorem placeOf_of_compares {new : α} {ordered : List α}
    (compares : ∀ other ∈ ordered, less new other = .ok (decide (rank new < rank other)))
    (sorted : ordered.Pairwise fun a b => rank a ≤ rank b) {fuel low high : Nat}
    (enough : high - low ≤ fuel) (lower : low ≤ high) (upper : high ≤ ordered.length)
    (below : ∀ i (_ : i < ordered.length), i < low → rank ordered[i] ≤ rank new)
    (above : ∀ i (_ : i < ordered.length), high ≤ i → rank new < rank ordered[i]) :
    ∃ place, placeOf less new ordered.toArray fuel low high = .ok place ∧
      (∀ a ∈ ordered.take place, rank a ≤ rank new) ∧
      ∀ a ∈ ordered.drop place, rank new < rank a := by
  have increasing := List.pairwise_iff_getElem.mp sorted
  induction fuel generalizing low high with
  | zero =>
      obtain rfl : low = high := by omega
      exact ⟨low, rfl, bounds_of_positions below above⟩
  | succ fuel ih =>
      unfold placeOf
      by_cases met : high ≤ low
      · rw [if_pos met]
        obtain rfl : low = high := by omega
        exact ⟨low, rfl, bounds_of_positions below above⟩
      · rw [if_neg met]
        dsimp only
        -- The half that is left holds the place, since the thing in the middle is compared.
        generalize split : low + (high - low) / 2 = middle
        have inside : middle < ordered.length := by omega
        have thing : ordered.toArray[middle]? = some ordered[middle] := by
          rw [List.getElem?_toArray, List.getElem?_eq_getElem inside]
        rw [thing]
        dsimp only
        rw [compares ordered[middle] (List.getElem_mem inside)]
        change ∃ place, (if decide (rank new < rank ordered[middle]) = true then _ else _) = _ ∧ _
        by_cases before : rank new < rank ordered[middle]
        · rw [if_pos (decide_eq_true before)]
          refine ih (by omega) (by omega) (by omega) below fun i bound later => ?_
          rcases Nat.eq_or_lt_of_le later with rfl | later
          · exact before
          · exact before.trans_le (increasing _ _ inside bound later)
        · rw [if_neg fun holds => before (of_decide_eq_true holds)]
          refine ih (by omega) (by omega) (by omega) (fun i bound earlier => ?_) above
          rcases Nat.eq_or_lt_of_le (Nat.le_of_lt_succ earlier) with rfl | earlier
          · exact not_lt.mp before
          · exact (increasing _ _ bound inside earlier).trans (not_lt.mp before)

/-- Inserting a thing into sorted things sorts it behind them. -/
theorem insert_of_compares {new : α} {ordered : List α} (sorts : Sorts rank things ordered)
    (compares : ∀ other ∈ ordered, less new other = .ok (decide (rank new < rank other))) :
    ∃ longer, insert less ordered new = .ok longer ∧ Sorts rank (things ++ [new]) longer := by
  obtain ⟨place, found, below, above⟩ :
      ∃ place, placeOf less new ordered.toArray ordered.length 0 ordered.length = .ok place ∧
        (∀ a ∈ ordered.take place, rank a ≤ rank new) ∧
        ∀ a ∈ ordered.drop place, rank new < rank a :=
    placeOf_of_compares compares sorts.ordered (by omega) (by omega) (le_refl _)
      (fun _ _ none => by omega) (fun _ _ none => by omega)
  refine ⟨ordered.take place ++ new :: ordered.drop place, ?_, ?_, fun codes => ?_⟩
  · unfold insert
    rw [found]
    rfl
  · have split := sorts.ordered
    rw [← List.take_append_drop place ordered, List.pairwise_append] at split
    obtain ⟨first, second, across⟩ := split
    refine List.pairwise_append.mpr ⟨first,
      List.pairwise_cons.mpr ⟨fun b member => (above b member).le, second⟩, fun a member b later => ?_⟩
    rcases List.mem_cons.mp later with rfl | later
    · exact below a member
    · exact across a member b later
  · have kept : things.filter (rank · = codes) = (ordered.take place).filter (rank · = codes) ++
        (ordered.drop place).filter (rank · = codes) := by
      rw [← sorts.stable codes, ← List.filter_append, List.take_append_drop]
    rw [List.filter_append, List.filter_append, kept, List.append_assoc]
    refine congrArg ((ordered.take place).filter (rank · = codes) ++ ·) ?_
    by_cases here : rank new = codes
    · have none : (ordered.drop place).filter (rank · = codes) = [] :=
        List.filter_eq_nil_iff.mpr fun a member same =>
          absurd (above a member) (by rw [of_decide_eq_true same, here]; exact lt_irrefl _)
      rw [List.filter_cons, if_pos (decide_eq_true here), none]
      simp [here]
    · rw [List.filter_cons, if_neg fun same => here (of_decide_eq_true same)]
      simp [here]

theorem foldlM_insert_of_compares {ordered : List α} (sorts : Sorts rank things ordered)
    (compares : Compares less rank (things ++ others)) :
    ∃ sorted, others.foldlM (insert less) ordered = .ok sorted ∧
      Sorts rank (things ++ others) sorted := by
  induction others generalizing things ordered with
  | nil => exact ⟨ordered, rfl, (List.append_nil things).symm ▸ sorts⟩
  | cons new rest ih =>
      have among : ∀ other ∈ ordered, other ∈ things := by
        intro other member
        have held : other ∈ ordered.filter (rank · = rank other) :=
          List.mem_filter.mpr ⟨member, decide_eq_true rfl⟩
        exact (List.mem_filter.mp (sorts.stable _ ▸ held)).1
      obtain ⟨longer, inserted, more⟩ := insert_of_compares sorts fun other member =>
        compares new (by simp) other (List.mem_append_left _ (among other member))
      rw [List.append_cons] at compares ⊢
      obtain ⟨sorted, found, sorts⟩ := ih more compares
      refine ⟨sorted, ?_, sorts⟩
      rw [List.foldlM_cons, inserted]
      exact found

/-- A short list is sorted. -/
theorem short_of_compares (compares : Compares less rank things) :
    ∃ sorted, short less things = .ok sorted ∧ Sorts rank things sorted := by
  match things, compares with
  | [], _ => exact ⟨[], rfl, List.Pairwise.nil, fun _ => rfl⟩
  | [thing], _ => exact ⟨[thing], rfl, List.pairwise_singleton _ _, fun _ => rfl⟩
  | first :: second :: rest, compares =>
      obtain ⟨run, others, split, goes⟩ : ∃ run others,
          splitRun less (decide (rank second < rank first)) second rest = .ok (run, others) ∧
            Goes rank (decide (rank second < rank first)) (second :: run) :=
        splitRun_of_compares fun a inside b member =>
          compares a (.tail _ inside) b (.tail _ member)
      have parts : first :: second :: rest = (first :: second :: run) ++ others :=
        congrArg (first :: second :: ·) (append_of_splitRun split)
      obtain ⟨sorted, found, sorts⟩ :=
        foldlM_insert_of_compares (goes.cons rfl).sorts (parts ▸ compares)
      refine ⟨sorted, ?_, parts ▸ sorts⟩
      unfold short
      dsimp only
      rw [compares second (.tail _ (.head _)) first (.head _)]
      change (splitRun less (decide (rank second < rank first)) second rest >>= _) = _
      rw [split]
      exact found

theorem forM_ok {β : Type} {items : List β} {step : β → Except Disorder Unit}
    (each : ∀ item ∈ items, step item = .ok ()) : items.forM step = .ok () := by
  induction items with
  | nil => rfl
  | cons item rest ih =>
      rw [List.forall_mem_cons] at each
      change (step item >>= fun _ => rest.forM step) = _
      rw [each.1]
      exact ih each.2

theorem isOrderable_of_compares (compares : Compares less rank things) :
    isOrderable less things = .ok () := by
  induction things with
  | nil => rfl
  | cons thing rest ih =>
      have first : (rest.forM fun other => discard (less thing other)) = .ok () := by
        refine forM_ok fun other member => ?_
        rw [compares thing (.head _) other (.tail _ member)]
        rfl
      unfold isOrderable
      rw [first]
      exact ih fun a inside b member => compares a (.tail _ inside) b (.tail _ member)

/-- Sorting by merging sorts things that are compared by their ranks. -/
theorem sorts_of_isBefore {before : α → α → Bool}
    (same : ∀ a ∈ things, ∀ b ∈ things, before a b = decide (rank a < rank b)) :
    Sorts rank things (things.mergeSort fun a b => !before b a) := by
  have mapped := List.map_mergeSort (f := id) (s := fun a b => !decide (rank b < rank a))
    (r := fun a b => !before b a) (l := things) fun a first b second =>
      congrArg (!·) (same b second a first)
  rw [List.map_id, List.map_id] at mapped
  exact mapped ▸ sorts_mergeSort things

end Sorting

open Sorting

variable {α : Type} {key : α → Value} {things sorted : List α}

/-- Things whose keys are texts are sorted. -/
theorem sortBy_of_texts (texts : ∀ thing ∈ things, (key thing).isText) :
    ∃ sorted, sortBy key things = .ok sorted ∧
      Sorts (fun thing => (key thing).rank) things sorted := by
  have compares : Compares (fun a b => (key a).less (key b)) (fun thing => (key thing).rank)
      things :=
    fun a first b second => Value.less_of_text (texts a first) (texts b second)
  unfold sortBy
  dsimp only
  split
  · refine ⟨_, rfl, sorts_of_isBefore fun a first b second => ?_⟩
    rw [Value.less_of_text (texts a first) (texts b second)]
    cases decide ((key a).rank < (key b).rank) <;> rfl
  split
  · exact short_of_compares compares
  · rw [isOrderable_of_compares compares]
    refine ⟨_, rfl, sorts_of_isBefore fun a first b second => ?_⟩
    rw [Value.less_of_text (texts a first) (texts b second)]
    cases decide ((key a).rank < (key b).rank) <;> rfl

/-! ## Texts among other values -/

namespace Sorting

variable {less : α → α → Except Disorder Bool} {kind : α → Bool}

/-- Only things of one kind are compared. -/
def Separates (less : α → α → Except Disorder Bool) (kind : α → Bool) : Prop :=
  ∀ a b isLess, less a b = .ok isLess → kind a = kind b

theorem splitRun_kind (separates : Separates less kind) {falls : Bool} {last : α}
    {run others : List α} (split : splitRun less falls last things = .ok (run, others)) :
    ∀ thing ∈ run, kind thing = kind last := by
  induction things generalizing last run others with
  | nil =>
      simp only [splitRun, Except.ok.injEq, Prod.mk.injEq] at split
      obtain ⟨rfl, rfl⟩ := split
      exact fun _ member => (List.not_mem_nil member).elim
  | cons next rest ih =>
      rw [splitRun] at split
      obtain ⟨before, compared, split⟩ := bind_eq_ok.mp split
      split at split
      · obtain ⟨⟨tail, others⟩, later, split⟩ := bind_eq_ok.mp split
        obtain ⟨rfl, rfl⟩ := Prod.mk.inj (pure_eq_ok.mp split)
        refine List.forall_mem_cons.mpr ⟨separates _ _ _ compared, fun thing member => ?_⟩
        exact (ih later thing member).trans (separates _ _ _ compared)
      · obtain ⟨rfl, rfl⟩ := Prod.mk.inj (pure_eq_ok.mp split)
        exact fun _ member => (List.not_mem_nil member).elim

/-- A new thing is compared with one of those that it is inserted into. -/
theorem insert_kind (separates : Separates less kind) {ordered longer : List α} {new : α}
    (some : ordered ≠ []) (inserted : insert less ordered new = .ok longer) :
    ∃ thing ∈ ordered, kind new = kind thing := by
  obtain ⟨place, found, -⟩ := bind_eq_ok.mp inserted
  obtain ⟨first, rest, rfl⟩ := List.exists_cons_of_ne_nil some
  rw [List.length_cons, placeOf, if_neg (by omega)] at found
  dsimp only at found
  have inside : 0 + (rest.length + 1 - 0) / 2 < (first :: rest).length := by
    rw [List.length_cons]
    omega
  rw [List.getElem?_toArray, List.getElem?_eq_getElem inside] at found
  obtain ⟨before, compared, -⟩ := bind_eq_ok.mp found
  exact ⟨_, List.getElem_mem inside, separates _ _ _ compared⟩

theorem foldlM_insert_kind (separates : Separates less kind) {ordered others longer : List α}
    {known : Bool} (some : ordered ≠ []) (all : ∀ thing ∈ ordered, kind thing = known)
    (inserted : others.foldlM (insert less) ordered = .ok longer) :
    ∀ thing ∈ others, kind thing = known := by
  induction others generalizing ordered with
  | nil => exact fun _ member => (List.not_mem_nil member).elim
  | cons new rest ih =>
      rw [List.foldlM_cons] at inserted
      obtain ⟨between, first, later⟩ := bind_eq_ok.mp inserted
      obtain ⟨thing, member, same⟩ := insert_kind separates some first
      have new_kind : kind new = known := same.trans (all thing member)
      have moved := perm_insert first
      refine List.forall_mem_cons.mpr ⟨new_kind, ih ?_ (fun other inside => ?_) later⟩
      · rintro rfl
        exact List.cons_ne_nil _ _ moved.symm.eq_nil
      · rcases List.mem_cons.mp (moved.mem_iff.mp inside) with rfl | inside
        · exact new_kind
        · exact all other inside

theorem short_kind (separates : Separates less kind) (found : short less things = .ok sorted) :
    ∃ known, ∀ thing ∈ things, kind thing = known := by
  unfold short at found
  split at found
  next first second rest =>
    obtain ⟨falls, compared, found⟩ := bind_eq_ok.mp found
    obtain ⟨⟨run, others⟩, split, found⟩ := bind_eq_ok.mp found
    dsimp only at found
    have start : ∀ thing ∈ first :: second :: run, kind thing = kind first := by
      have equal := separates _ _ _ compared
      refine List.forall_mem_cons.mpr ⟨rfl, List.forall_mem_cons.mpr ⟨equal, ?_⟩⟩
      exact fun thing member => (splitRun_kind separates split thing member).trans equal
    have turned : ∀ thing, thing ∈ (if falls = true then (first :: second :: run).reverse
        else first :: second :: run) → thing ∈ first :: second :: run := by
      intro thing member
      split at member
      · exact List.mem_reverse.mp member
      · exact member
    have behind := foldlM_insert_kind separates (by split <;> simp)
      (fun thing member => start thing (turned thing member)) found
    refine ⟨kind first, ?_⟩
    rw [append_of_splitRun split]
    intro thing member
    exact (List.mem_append.mp (member : thing ∈ (first :: second :: run) ++ others)).elim
      (start thing) (behind thing)
  next short =>
    match things, short with
    | [], _ => exact ⟨true, fun _ member => (List.not_mem_nil member).elim⟩
    | [thing], _ => exact ⟨kind thing, fun other member => List.mem_singleton.mp member ▸ rfl⟩
    | first :: second :: rest, several => exact (several first second rest rfl).elim

theorem forM_eq_ok {β : Type} {items : List β} {step : β → Except Disorder Unit}
    (each : items.forM step = .ok ()) : ∀ item ∈ items, step item = .ok () := by
  induction items with
  | nil => exact fun _ member => (List.not_mem_nil member).elim
  | cons item rest ih =>
      obtain ⟨_, first, later⟩ := bind_eq_ok.mp (each : (step item >>= fun _ => rest.forM step) = _)
      exact List.forall_mem_cons.mpr ⟨first, ih later⟩

theorem isOrderable_kind (separates : Separates less kind)
    (found : isOrderable less things = .ok ()) : ∃ known, ∀ thing ∈ things, kind thing = known := by
  cases things with
  | nil => exact ⟨true, fun _ member => (List.not_mem_nil member).elim⟩
  | cons thing rest =>
      obtain ⟨_, first, -⟩ := bind_eq_ok.mp found
      refine ⟨kind thing, List.forall_mem_cons.mpr ⟨rfl, fun other member => ?_⟩⟩
      have compared := forM_eq_ok first other member
      cases ordered : less thing other with
      | error disorder =>
          rw [ordered] at compared
          cases compared
      | ok isLess => exact (separates _ _ _ ordered).symm

end Sorting

/-- What is sorted has only texts for keys, or none. -/
theorem isText_of_sortBy (found : sortBy key things = .ok sorted) :
    ∃ known, ∀ thing ∈ things, (key thing).isText = known := by
  have separates : Separates (fun a b => (key a).less (key b)) fun thing => (key thing).isText :=
    fun _ _ _ => Value.isText_of_less
  unfold sortBy at found
  dsimp only at found
  split at found
  next texts =>
    refine ⟨true, fun thing member => ?_⟩
    have text := List.all_eq_true.mp texts thing member
    revert text
    cases key thing with
    | scalar value => cases value <;> simp [Value.isText, Scalar.codes?]
    | _ => simp
  split at found
  · exact short_kind separates found
  · obtain ⟨_, orderable, -⟩ := bind_eq_ok.mp found
    exact isOrderable_kind separates orderable

/-! ## Orders that do not matter -/

/-- Two lists have the same things under every text, in the same order, and the same other
things. -/
def SameByText (key : α → Value) (first second : List α) : Prop :=
  ∀ codes, first.filter (fun thing => (key thing).codes? = codes) =
    second.filter fun thing => (key thing).codes? = codes

namespace SameByText

variable {first second : List α}

theorem symm (same : SameByText key first second) : SameByText key second first :=
  fun codes => (same codes).symm

theorem mem (same : SameByText key first second) {thing : α} (member : thing ∈ first) :
    thing ∈ second := by
  have held : thing ∈ first.filter fun other => (key other).codes? = (key thing).codes? :=
    List.mem_filter.mpr ⟨member, decide_eq_true rfl⟩
  rw [same] at held
  exact (List.mem_filter.mp held).1

/-- Sorting does not depend on the order of things with different texts for keys. -/
theorem sortBy (same : SameByText key first second)
    (found : ServiceDoc.sortBy key first = .ok sorted) :
    ServiceDoc.sortBy key second = .ok sorted := by
  obtain ⟨known, kinds⟩ := isText_of_sortBy found
  cases known with
  | true =>
      have texts : ∀ thing ∈ second, (key thing).isText := fun thing member =>
        kinds thing (same.symm.mem member)
      obtain ⟨_, sorts, ordered⟩ := sortBy_of_texts kinds
      obtain ⟨again, resorts, reordered⟩ := sortBy_of_texts texts
      rw [found, Except.ok.injEq] at sorts
      subst sorts
      have ranked {things : List α} (texts : ∀ thing ∈ things, (key thing).isText)
          (codes : List Nat) : things.filter (fun thing => (key thing).rank = codes) =
            things.filter fun thing => (key thing).codes? = some codes := by
        refine List.filter_congr fun thing member => decide_eq_decide.mpr ?_
        obtain ⟨own, held⟩ := Option.isSome_iff_exists.mp
          ((key thing).isText_eq ▸ texts thing member)
        rw [Value.rank, held, Option.getD_some, Option.some.injEq]
      have moved : Sorts (fun thing => (key thing).rank) second sorted :=
        ⟨ordered.ordered, fun codes => (ordered.stable codes).trans
          ((ranked kinds codes).trans ((same _).trans (ranked texts codes).symm))⟩
      rw [resorts, reordered.unique moved]
  | false =>
      have whole {things : List α} (others : ∀ thing ∈ things, (key thing).isText = false) :
          things.filter (fun thing => (key thing).codes? = none) = things := by
        refine List.filter_eq_self.mpr fun thing member => decide_eq_true ?_
        have other := others thing member
        rwa [Value.isText_eq, Option.isSome_eq_false_iff, Option.isNone_iff_eq_none] at other
      rw [← whole fun thing member => kinds thing (same.symm.mem member), ← same, whole kinds]
      exact found

end SameByText

end ServiceDoc
