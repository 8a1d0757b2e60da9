import ServiceDoc.Value.Basic
import Mathlib.Data.List.Forall2
import Mathlib.Data.List.Nodup

/-!
# Entries of mappings

What stands under a key after other keys are set, and what the keys are then.
-/

namespace ServiceDoc

/-- What is looked up stands beside its key. -/
theorem mem_of_lookup {α β : Type} [BEq α] [LawfulBEq α] {entries : List (α × β)} {key : α}
    {value : β} (found : entries.lookup key = some value) : (key, value) ∈ entries := by
  obtain ⟨before, after, split, -⟩ := List.lookup_eq_some_iff.mp found
  rw [split]
  exact List.mem_append_right _ (.head _)

/-- Items come in the order of their positions. -/
theorem pairwise_zipIdx {α : Type} (items : List α) :
    items.zipIdx.Pairwise fun first second => first.2 < second.2 := by
  have positions := List.pairwise_lt_range' (s := 0) (n := items.length)
  rw [← List.zipIdx_map_snd 0 items] at positions
  exact List.pairwise_map.mp positions

/-- A value that is related to an item of a list, for each value of another list. -/
theorem exists_of_forall₂ {α β : Type} {relates : α → β → Prop} {items : List α} {values : List β}
    (related : List.Forall₂ relates items values) {value : β} (member : value ∈ values) :
    ∃ item ∈ items, relates item value := by
  induction related with
  | nil => exact (List.not_mem_nil member).elim
  | cons first _ ih =>
      rcases List.mem_cons.mp member with rfl | member
      · exact ⟨_, .head _, first⟩
      · obtain ⟨item, inside, related⟩ := ih member
        exact ⟨item, .tail _ inside, related⟩

namespace Entries

variable {α β : Type} {entries others changes : Entries α} {key other : Scalar} {value : α}

theorem keys_append : keys (entries ++ others) = entries.keys ++ others.keys :=
  List.map_append ..

/-- The value of a key is that of one of the entries. -/
theorem mem_of_get? (found : entries.get? key = some value) : (key, value) ∈ entries := by
  obtain ⟨entry, first, rfl⟩ := Option.map_eq_some_iff.mp found
  have same := List.find?_some first
  rw [decide_eq_true_eq] at same
  exact same ▸ List.mem_of_find?_eq_some first

theorem get?_eq_none_iff : entries.get? key = none ↔ key ∉ entries.keys := by
  rw [get?, Option.map_eq_none_iff, List.find?_eq_none, keys, List.mem_map]
  constructor
  · rintro unlike ⟨entry, member, rfl⟩
    exact unlike entry member (decide_eq_true rfl)
  · intro absent entry member same
    exact absent ⟨entry, member, of_decide_eq_true same⟩

theorem contains_eq_isSome_get? : entries.contains key = (entries.get? key).isSome := by
  rw [get?, Option.isSome_map, List.isSome_find?]
  rfl

theorem get?_append : get? (entries ++ others) key = (entries.get? key).or (others.get? key) := by
  rw [get?, List.find?_append, Option.map_or]
  rfl

/-- Among entries with different keys, each entry is what stands under its key. -/
theorem get?_eq_some_iff (distinct : entries.keys.Nodup) :
    entries.get? key = some value ↔ (key, value) ∈ entries := by
  refine ⟨mem_of_get?, fun member => ?_⟩
  cases found : entries.get? key with
  | none =>
      have missing := List.find?_eq_none.mp (Option.map_eq_none_iff.mp found) _ member
      exact absurd (decide_eq_true rfl) missing
  | some other =>
      have same := List.inj_on_of_nodup_map distinct member (mem_of_get? found) rfl
      rw [(Prod.mk.inj same).2]

/-- The order of entries with different keys does not matter to what stands under a key. -/
theorem get?_of_perm (moved : others.Perm entries) (distinct : entries.keys.Nodup)
    (key : Scalar) : others.get? key = entries.get? key := by
  have moved_distinct : others.keys.Nodup := (moved.map Prod.fst).nodup_iff.mpr distinct
  refine Option.ext fun value => ?_
  rw [get?_eq_some_iff moved_distinct, get?_eq_some_iff distinct, moved.mem_iff]

/-! ## Setting a key -/

theorem mem_keys_put :
    other ∈ (entries.put key value).keys ↔ other = key ∨ other ∈ entries.keys := by
  rw [keys_put]
  split
  · next known =>
      exact ⟨.inr, fun member => member.elim (fun same => same ▸ known) id⟩
  · rw [List.mem_append, List.mem_singleton, or_comm]

theorem nodup_keys_put (distinct : entries.keys.Nodup) : (entries.put key value).keys.Nodup := by
  rw [keys_put]
  split
  · exact distinct
  · next fresh =>
      exact distinct.append (List.nodup_singleton key) (List.disjoint_singleton.mpr fresh)

theorem put_of_notMem (fresh : key ∉ entries.keys) :
    entries.put key value = entries ++ [(key, value)] := by
  induction entries with
  | nil => rfl
  | cons entry rest ih =>
      obtain ⟨other, old⟩ := entry
      obtain ⟨differ, later⟩ := List.ne_and_not_mem_of_not_mem_cons fresh
      rw [put, if_neg differ.symm, ih later]
      rfl

/-- Setting a key and changing all values can be done in any order. -/
theorem map_put (change : α → β) :
    (entries.put key value).map (Prod.map id change) =
      put (entries.map (Prod.map id change)) key (change value) := by
  induction entries with
  | nil => rfl
  | cons entry rest ih =>
      obtain ⟨other, old⟩ := entry
      by_cases same : other = key
      · simp [put, same]
      · simp only [put, if_neg same, List.map_cons, Prod.map_apply, id_eq, ih]

theorem get?_map (change : α → β) :
    get? (entries.map (Prod.map id change)) key = (entries.get? key).map change := by
  induction entries with
  | nil => rfl
  | cons entry rest ih =>
      rw [List.map_cons, get?_cons, get?_cons, ih]
      by_cases same : entry.1 = key <;> simp [same]

/-! ## Setting several keys -/

@[simp] theorem putAll_nil : entries.putAll [] = entries := rfl

theorem putAll_cons {entry : Scalar × α} :
    entries.putAll (entry :: changes) = (entries.put entry.1 entry.2).putAll changes := rfl

theorem mem_keys_putAll :
    key ∈ (entries.putAll changes).keys ↔ key ∈ entries.keys ∨ key ∈ changes.keys := by
  induction changes generalizing entries with
  | nil => simp [keys]
  | cons entry rest ih =>
      rw [putAll_cons, ih, mem_keys_put, keys, keys, keys, List.map_cons, List.mem_cons, or_assoc,
        or_left_comm]

theorem nodup_keys_putAll (distinct : entries.keys.Nodup) :
    (entries.putAll changes).keys.Nodup := by
  induction changes generalizing entries with
  | nil => exact distinct
  | cons entry rest ih => exact ih (nodup_keys_put distinct)

/-- A key that is not set keeps its value. -/
theorem get?_putAll_of_notMem (absent : key ∉ changes.keys) :
    (entries.putAll changes).get? key = entries.get? key := by
  induction changes generalizing entries with
  | nil => rfl
  | cons entry rest ih =>
      obtain ⟨differ, later⟩ := List.ne_and_not_mem_of_not_mem_cons absent
      rw [putAll_cons, ih later, get?_put_of_ne entries entry.2 differ]

/-- Under a key there is the last value that it is set to, and else the value that was there. -/
theorem get?_putAll : (entries.putAll changes).get? key =
    (get? changes.reverse key).or (entries.get? key) := by
  induction changes generalizing entries with
  | nil => rfl
  | cons entry rest ih =>
      rw [putAll_cons, ih, List.reverse_cons, get?_append, Option.or_assoc, get?_put, get?_cons]
      by_cases same : entry.1 = key
      · rw [if_pos same.symm, if_pos same]
        rfl
      · rw [if_neg (Ne.symm same), if_neg same]
        rfl

/-- Different keys that are new are added at the end. -/
theorem putAll_of_disjoint (distinct : changes.keys.Nodup)
    (fresh : ∀ key ∈ changes.keys, key ∉ entries.keys) :
    entries.putAll changes = entries ++ changes := by
  induction changes generalizing entries with
  | nil => exact (List.append_nil entries).symm
  | cons entry rest ih =>
      obtain ⟨unlike, later⟩ := List.nodup_cons.mp distinct
      have put_entry : entries.put entry.1 entry.2 = entries ++ [(entry.1, entry.2)] :=
        put_of_notMem (fresh entry.1 (.head _))
      rw [putAll_cons, ih later, put_entry, List.append_assoc]
      · rfl
      · intro key member inside
        rw [put_entry, keys_append, List.mem_append] at inside
        refine inside.elim (fresh key (.tail _ member)) fun new => unlike ?_
        rwa [← List.mem_singleton.mp new]

end Entries

end ServiceDoc
