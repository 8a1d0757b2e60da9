import ServiceDoc.Text.Pieces
import Mathlib.Data.List.Infix

/-!
# Searching in pieces of text

A pattern without separators stands in a text exactly if it stands in one of the pieces that the
text is cut into. A search passes over text that the pattern can not start in.
-/

namespace ServiceDoc.Text

variable {pattern text before after : List Char} {separator : Char}

/-- The first piece of a cut is what stands before the first separator. -/
theorem headD_cutAt (separator : Char) (text : List Char) :
    (cutAt separator text).headD [] = text.takeWhile (· ≠ separator) := by
  induction text with
  | nil => rfl
  | cons c rest ih =>
      by_cases same : c = separator
      · simp [cutAt, same]
      · rw [cutAt, if_neg same, List.takeWhile_cons_of_pos (by simpa using same), ← ih]
        cases cutAt separator rest with
        | nil => rfl
        | cons piece pieces => rfl

/-- Joined pieces hold each of the pieces. -/
theorem infix_joinWith {pieces : List (List Char)} {piece : List Char} (member : piece ∈ pieces)
    (between : List Char) : piece <:+: joinWith between pieces := by
  induction pieces with
  | nil => exact (List.not_mem_nil member).elim
  | cons first rest ih =>
      cases rest with
      | nil => exact List.mem_singleton.mp member ▸ List.infix_rfl
      | cons second others =>
          rw [joinWith]
          · rcases List.mem_cons.mp member with rfl | member
            · rw [List.append_assoc]
              exact List.infix_append' [] _ _
            · exact (ih member).trans (List.suffix_append _ _).isInfix
          · exact List.cons_ne_nil _ _

/-- A pattern without the separator stands in a text exactly if it stands in a piece of it. -/
theorem infix_iff_exists_piece (absent : separator ∉ pattern) :
    pattern <:+: text ↔ ∃ piece ∈ cutAt separator text, pattern <:+: piece := by
  constructor
  · induction text with
    | nil => exact fun inside => ⟨[], .head _, inside⟩
    | cons c rest ih =>
        intro inside
        by_cases same : c = separator
        · rw [cutAt, if_pos same]
          rcases List.infix_cons_iff.mp inside with starts | later
          · cases pattern with
            | nil => exact ⟨[], .head _, List.infix_rfl⟩
            | cons first others =>
                have first_eq := (List.cons_prefix_cons.mp starts).1
                exact (absent (first_eq.trans same ▸ .head _)).elim
          · obtain ⟨piece, member, inside⟩ := ih later
            exact ⟨piece, .tail _ member, inside⟩
        · have first := headD_cutAt separator (c :: rest)
          cases cut : cutAt separator rest with
          | nil => exact (cutAt_ne_nil separator rest cut).elim
          | cons piece pieces =>
              rw [cutAt, if_neg same, cut] at first ⊢
              rcases List.infix_cons_iff.mp inside with starts | later
              · obtain ⟨tail, rest_eq⟩ := starts
                refine ⟨c :: piece, .head _, List.IsPrefix.isInfix ?_⟩
                change c :: piece = _ at first
                rw [first, ← rest_eq, List.takeWhile_append_of_pos]
                · exact List.prefix_append _ _
                · exact fun other member => decide_eq_true fun same => absent (same ▸ member)
              · obtain ⟨found, member, inside⟩ := ih later
                rw [cut] at member
                rcases List.mem_cons.mp member with rfl | member
                · exact ⟨c :: found, .head _, inside.trans (List.suffix_cons _ _).isInfix⟩
                · exact ⟨found, .tail _ member, inside⟩
  · rintro ⟨piece, member, inside⟩
    exact joinWith_cutAt separator text ▸ inside.trans (infix_joinWith member _)

/-! ## Searching -/

/-- Characters of a class are taken up to where another character follows. -/
theorem takeWhile_append_of_stop {test : Char → Bool} (pass : ∀ c ∈ before, test c = true)
    (stop : ∀ c, after.head? = some c → test c = false) :
    (before ++ after).takeWhile test = before := by
  rw [List.takeWhile_append_of_pos pass]
  cases after with
  | nil => rw [List.takeWhile_nil, List.append_nil]
  | cons c rest => rw [List.takeWhile_cons_of_neg (by simp [stop c rfl]), List.append_nil]

/-- A search finds a pattern exactly if the text holds it. -/
theorem isSome_cutFirst : (cutFirst pattern text).isSome = true ↔ pattern <:+: text := by
  induction text with
  | nil =>
      rw [cutFirst, List.infix_nil]
      cases pattern with
      | nil => simp
      | cons c rest => simp
  | cons c rest ih =>
      rw [cutFirst, List.infix_cons_iff]
      by_cases starts : pattern.isPrefixOf (c :: rest) = true
      · rw [if_pos starts]
        exact ⟨fun _ => .inl (List.isPrefixOf_iff_prefix.mp starts), fun _ => rfl⟩
      · rw [if_neg starts, Option.isSome_map, ih]
        exact ⟨.inr,
          Or.rec (fun begins => (starts (List.isPrefixOf_iff_prefix.mpr begins)).elim) id⟩

/-- What a text starts with is found there. -/
theorem cutFirst_append_self (nonempty : pattern ≠ []) :
    cutFirst pattern (pattern ++ after) = some ([], after) := by
  cases pattern with
  | nil => exact (nonempty rfl).elim
  | cons c rest =>
      have starts : (c :: rest).isPrefixOf (c :: (rest ++ after)) = true :=
        List.isPrefixOf_iff_prefix.mpr (List.prefix_append (c :: rest) after)
      rw [List.cons_append, cutFirst, if_pos starts]
      simp

/-- A search passes over text that does not hold the first character of the pattern. -/
theorem cutFirst_append_of_notMem {c : Char} (absent : c ∉ before) :
    cutFirst (c :: pattern) (before ++ after) =
      (cutFirst (c :: pattern) after).map fun found => (before ++ found.1, found.2) := by
  induction before with
  | nil => simp
  | cons first rest ih =>
      obtain ⟨differ, absent⟩ := not_or.mp fun member => absent (List.mem_cons.mpr member)
      have misses : (c :: pattern).isPrefixOf (first :: (rest ++ after)) = false := by
        simp [List.isPrefixOf, differ]
      rw [List.cons_append, cutFirst, misses, ih absent]
      cases cutFirst (c :: pattern) after <;> rfl

/-- What is found stands between what is before and what is after. -/
theorem eq_of_cutFirst (found : cutFirst pattern text = some (before, after)) :
    text = before ++ pattern ++ after := by
  induction text generalizing before with
  | nil =>
      rw [cutFirst] at found
      split at found
      next empty =>
        obtain ⟨rfl, rfl⟩ := Prod.mk.inj (Option.some.inj found)
        rw [List.isEmpty_iff.mp empty]
        rfl
      next => exact (Option.some_ne_none _ found.symm).elim
  | cons c rest ih =>
      rw [cutFirst] at found
      split at found
      next starts =>
        obtain ⟨rfl, rfl⟩ := Prod.mk.inj (Option.some.inj found)
        exact (List.prefix_append_drop (List.isPrefixOf_iff_prefix.mp starts))
      next =>
        obtain ⟨⟨first, last⟩, later, same⟩ := Option.map_eq_some_iff.mp found
        obtain ⟨rfl, rfl⟩ := Prod.mk.inj same
        rw [ih later]
        rfl

/-- A character does not stand before its first occurrence. -/
theorem notMem_of_cutFirst {c : Char} (found : cutFirst [c] text = some (before, after)) :
    c ∉ before := by
  induction text generalizing before with
  | nil => simp [cutFirst] at found
  | cons first rest ih =>
      rw [cutFirst] at found
      split at found
      next =>
        obtain ⟨rfl, -⟩ := Prod.mk.inj (Option.some.inj found)
        exact List.not_mem_nil
      next differs =>
        obtain ⟨⟨others, last⟩, later, same⟩ := Option.map_eq_some_iff.mp found
        obtain ⟨rfl, rfl⟩ := Prod.mk.inj same
        rw [List.mem_cons, not_or]
        refine ⟨?_, ih later⟩
        rintro rfl
        simp [List.isPrefixOf] at differs

/-- A character that a text does not hold is not found. -/
theorem cutFirst_eq_none {c : Char} (absent : c ∉ text) : cutFirst [c] text = none := by
  have passed : cutFirst [c] (text ++ []) = none := cutFirst_append_of_notMem absent
  rwa [List.append_nil] at passed

/-- Replacing a pattern by itself changes nothing. -/
theorem replaceFirst_self (pattern text : List Char) : replaceFirst pattern pattern text = text := by
  unfold replaceFirst
  split
  next before after found => exact (eq_of_cutFirst found).symm
  next => rfl

end ServiceDoc.Text
