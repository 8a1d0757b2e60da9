import ServiceDoc.Value.Sorting
import Mathlib.Data.List.Basic

/-!
# Sorting keeps what is sorted

Whatever comparisons say, a list that was sorted is a list of the same things.
-/

namespace ServiceDoc

/-- Two steps that can fail come to a value if the first does and the second does with what the
first comes to. -/
theorem bind_eq_ok {ε α β : Type} {first : Except ε α} {next : α → Except ε β} {result : β} :
    (first >>= next) = .ok result ↔ ∃ value, first = .ok value ∧ next value = .ok result := by
  cases first with
  | error error =>
      change Except.error error = Except.ok result ↔ _
      simp
  | ok value =>
      change next value = Except.ok result ↔ _
      simp

theorem pure_eq_ok {ε α : Type} {value result : α} :
    (pure value : Except ε α) = .ok result ↔ value = result := by
  change Except.ok value = Except.ok result ↔ _
  rw [Except.ok.injEq]

namespace Sorting

variable {α : Type} {less : α → α → Except Disorder Bool} {things : List α}

/-- A run and the things behind it are the things in order. -/
theorem append_of_splitRun {falls : Bool} {last : α} {run others : List α}
    (split : splitRun less falls last things = .ok (run, others)) : things = run ++ others := by
  induction things generalizing last run others with
  | nil =>
      simp only [splitRun, Except.ok.injEq, Prod.mk.injEq] at split
      obtain ⟨rfl, rfl⟩ := split
      rfl
  | cons next rest ih =>
      rw [splitRun] at split
      obtain ⟨before, -, split⟩ := bind_eq_ok.mp split
      split at split
      · obtain ⟨⟨tail, others⟩, later, split⟩ := bind_eq_ok.mp split
        obtain ⟨rfl, rfl⟩ := Prod.mk.inj (pure_eq_ok.mp split)
        rw [List.cons_append, ← ih later]
      · obtain ⟨rfl, rfl⟩ := Prod.mk.inj (pure_eq_ok.mp split)
        rfl

theorem perm_insert {ordered longer : List α} {new : α}
    (inserted : insert less ordered new = .ok longer) : longer.Perm (new :: ordered) := by
  obtain ⟨place, -, inserted⟩ := bind_eq_ok.mp inserted
  rw [← pure_eq_ok.mp inserted]
  refine List.perm_middle.trans (.cons new ?_)
  rw [List.take_append_drop]

theorem perm_foldlM_insert {ordered others longer : List α}
    (inserted : others.foldlM (insert less) ordered = .ok longer) :
    longer.Perm (ordered ++ others) := by
  induction others generalizing ordered with
  | nil =>
      rw [List.append_nil, pure_eq_ok.mp inserted]
  | cons new rest ih =>
      rw [List.foldlM_cons] at inserted
      obtain ⟨between, first, later⟩ := bind_eq_ok.mp inserted
      have moved : (between ++ rest).Perm (new :: ordered ++ rest) :=
        (perm_insert first).append_right rest
      exact (ih later).trans (moved.trans List.perm_middle.symm)

/-- A short list is sorted by moving its things. -/
theorem perm_short {sorted : List α} (found : short less things = .ok sorted) :
    sorted.Perm things := by
  unfold short at found
  split at found
  next first second rest =>
    obtain ⟨falls, -, found⟩ := bind_eq_ok.mp found
    obtain ⟨⟨run, others⟩, split, found⟩ := bind_eq_ok.mp found
    have moved := perm_foldlM_insert found
    rw [append_of_splitRun split]
    refine moved.trans ?_
    split
    · exact (List.reverse_perm _).append_right others
    · exact .refl _
  next => rw [Except.ok.inj found]

end Sorting

/-- Sorting keeps the things that are sorted. -/
theorem perm_sortBy {α : Type} {key : α → Value} {things sorted : List α}
    (found : sortBy key things = .ok sorted) : sorted.Perm things := by
  unfold sortBy at found
  dsimp only at found
  split at found
  · rw [← Except.ok.inj found]
    exact List.mergeSort_perm _ _
  split at found
  · exact Sorting.perm_short found
  · obtain ⟨_, -, found⟩ := bind_eq_ok.mp found
    rw [← pure_eq_ok.mp found]
    exact List.mergeSort_perm _ _

end ServiceDoc
