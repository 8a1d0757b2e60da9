import ServiceDoc.Proofs.Value.Entries
import ServiceDoc.Text.Case

/-!
# Lower case

Capital letters of ASCII keep apart in lower case. Beside the characters of ASCII themselves, only
the capital I with a dot and the sign of the kelvin have characters of ASCII in their lower case.
-/

namespace ServiceDoc.Text

variable {c d : Char}

theorem isUpper_iff : c.isUpper = true ↔ 'A'.val ≤ c.val ∧ c.val ≤ 'Z'.val :=
  decide_eq_true_iff

theorem lt_of_isUpper (capital : c.isUpper = true) : c.toNat < 128 :=
  Nat.lt_of_le_of_lt (UInt32.le_iff_toNat_le.mp (isUpper_iff.mp capital).2) (by decide)

/-- A capital letter is its own upper case. -/
theorem upper_of_isUpper (capital : c.isUpper = true) : upper c = [c] := by
  rw [upper, if_pos (lt_of_isUpper capital)]
  refine congrArg (fun c => [c]) (dif_neg ?_)
  rintro ⟨large, -⟩
  exact absurd (UInt32.le_trans large (isUpper_iff.mp capital).2) (by decide)

/-- The lower case of a capital letter is a letter further on. -/
theorem lower_of_isUpper (capital : c.isUpper = true) :
    ∃ small : Char, lower c = [small] ∧ small.val = c.val + 32 := by
  refine ⟨c.toLower, by rw [lower, if_pos (lt_of_isUpper capital)], ?_⟩
  exact congrArg Char.val (dif_pos (isUpper_iff.mp capital))

/-- Capital letters with one lower case are one letter. -/
theorem eq_of_lower_eq (capital : c.isUpper = true) (capital_too : d.isUpper = true)
    (same : lower c = lower d) : c = d := by
  obtain ⟨small, lowered, value⟩ := lower_of_isUpper capital
  obtain ⟨other, lowered_too, value_too⟩ := lower_of_isUpper capital_too
  rw [lowered, lowered_too, List.singleton_inj] at same
  have sum : c.val + 32 = d.val + 32 := value.symm.trans (same ▸ value_too)
  exact Char.ext ((UInt32.add_left_inj 32).mp sum)

/-- The runs that lead from beyond ASCII into ASCII hold the sign of the kelvin alone. -/
theorem lowerRuns_image : ∀ run ∈ lowerRuns, run.last < 128 ∨
    run.first = 8490 ∧ run.last = 8490 ∧ run.shift = -8383 ∨
      128 ≤ run.first + run.shift ∧ run.last + run.shift < 55296 ∨
        57343 < run.first + run.shift ∧ run.last + run.shift < 1114112 := by
  decide +kernel

theorem eq_of_lookup_lowerSeveral {code : Nat} {codes : List Nat}
    (several : lowerSeveral.lookup code = some codes) : codes = [105, 775] := by
  have among := mem_of_lookup several
  simp only [lowerSeveral, List.mem_singleton, Prod.mk.injEq] at among
  exact among.2

theorem toNat_ofNat {code : Nat} (valid : code.isValidChar) : (Char.ofNat code).toNat = code := by
  unfold Char.ofNat
  rw [dif_pos valid]
  rfl

/-- A character of ASCII in the lower case of one that is beyond ASCII is an i or a k. -/
theorem eq_of_mem_lower (beyond : 128 ≤ c.toNat) (member : d ∈ lower c) (ascii : d.toNat < 128) :
    d = 'i' ∨ d = 'k' := by
  rw [lower, if_neg (by omega)] at member
  unfold mapCase at member
  dsimp only at member
  split at member
  next codes several =>
    rw [eq_of_lookup_lowerSeveral several, List.map_cons, List.map_singleton, List.mem_pair]
      at member
    rcases member with rfl | rfl
    · exact .inl (by decide)
    · exact absurd ascii (by decide)
  · split at member
    next run found =>
      rw [List.mem_singleton] at member
      have within := List.find?_some found
      simp only [Bool.and_eq_true, decide_eq_true_eq] at within
      rcases lowerRuns_image run (List.mem_of_find?_eq_some found) with
        early | ⟨first, last, shift⟩ | ⟨low, high⟩ | ⟨low, high⟩
      · omega
      · have kelvin : c.toNat = 8490 := by omega
        rw [member, kelvin, shift]
        exact .inr (by decide)
      · rw [member, toNat_ofNat (.inl (by omega))] at ascii
        omega
      · rw [member, toNat_ofNat (.inr (by omega))] at ascii
        omega
    · rw [List.mem_singleton] at member
      rw [member] at ascii
      omega

theorem lower_ne_nil (c : Char) : lower c ≠ [] := by
  unfold lower mapCase
  split
  · exact List.cons_ne_nil _ _
  · dsimp only
    split
    next codes several =>
      rw [eq_of_lookup_lowerSeveral several]
      exact List.cons_ne_nil _ _
    · split <;> exact List.cons_ne_nil _ _

theorem flatMap_lower_of_single {text : List Char} (single : ∀ c ∈ text, lower c = [c.toLower]) :
    text.flatMap lower = text.map Char.toLower := by
  rw [← List.flatMap_pure_eq_map]
  exact List.flatMap_congr single

/-- A text of ASCII without i and k is the lower case of what differs from it in the case of letters
of ASCII only. -/
theorem flatMap_lower_eq_iff {text word : List Char} (ascii : ∀ d ∈ word, d.toNat < 128)
    (without_i : 'i' ∉ word) (without_k : 'k' ∉ word) :
    text.flatMap lower = word ↔ text.map Char.toLower = word := by
  have single (c : Char) (small : c.toNat < 128) : lower c = [c.toLower] := if_pos small
  constructor
  · rintro rfl
    have small : ∀ c ∈ text, lower c = [c.toLower] := by
      intro c member
      by_contra wide
      have beyond : 128 ≤ c.toNat := Nat.le_of_not_lt fun small => wide (single c small)
      obtain ⟨d, inside⟩ := List.exists_mem_of_ne_nil _ (lower_ne_nil c)
      have within : d ∈ text.flatMap lower := List.mem_flatMap.mpr ⟨c, member, inside⟩
      rcases eq_of_mem_lower beyond inside (ascii d within) with rfl | rfl
      · exact without_i within
      · exact without_k within
    exact (flatMap_lower_of_single small).symm
  · rintro rfl
    have small : ∀ c ∈ text, lower c = [c.toLower] := by
      intro c member
      refine single c (Nat.lt_of_not_le fun beyond => ?_)
      have kept : c.toLower = c := by
        refine dif_neg fun capital => ?_
        exact absurd (lt_of_isUpper (isUpper_iff.mpr capital)) (Nat.not_lt.mpr beyond)
      have inside := ascii _ (List.mem_map_of_mem member)
      rw [kept] at inside
      omega
    exact flatMap_lower_of_single small

end ServiceDoc.Text
