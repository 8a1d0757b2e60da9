import ServiceDoc.Value.Same
import Mathlib.Data.List.Basic

/-!
# Texts among values

A text is the same as itself and as no other value, and is compared with any value in one step.
-/

namespace ServiceDoc

/-- Whether a value is a text, in which surrogates may stand alone. -/
def Value.isText : Value → Bool
  | scalar value => value.codes?.isSome
  | _ => false

theorem Scalar.fraction?_of_text {scalar : Scalar} (text : scalar.codes?.isSome) :
    scalar.fraction? = none := by
  cases scalar with
  | string _ | surrogates _ => rfl
  | _ => cases text

/-- A text is the same as another scalar only if it is that scalar. -/
theorem Scalar.same_of_text {a b : Scalar} (text : a.codes?.isSome ∨ b.codes?.isSome) :
    a.same b = decide (a = b) := by
  have apart (found : a.fraction?.isSome ≠ b.fraction?.isSome) : false = decide (a = b) :=
    (decide_eq_false fun one : a = b => found (by rw [one])).symm
  unfold same
  split
  · next first second =>
      rcases text with text | text
      · rw [fraction?_of_text text] at first
        cases first
      · rw [fraction?_of_text text] at second
        cases second
  · split
    · rcases text with text | text <;> cases text
    · rcases text with text | text <;> cases text
    · rfl
  · next other both =>
      apply apart
      cases first : a.fraction? with
      | none =>
          cases second : b.fraction? with
          | none => exact (both first second).elim
          | some _ => exact Bool.noConfusion
      | some x =>
          cases second : b.fraction? with
          | none => exact Bool.noConfusion
          | some y => exact (other x y first second).elim

namespace Value

variable {a b : Value}

/-- Comparing a text with any value ends. -/
theorem same?_of_text (text : a.isText) : a.same? b = some (a.same b) := by
  cases a with
  | scalar _ => cases b <;> simp [same, same?, sameWithin]
  | _ => cases text

/-- A text is the same as another value only if it is that value. -/
theorem same_iff_of_text (text : a.isText ∨ b.isText) : a.same b ↔ a = b := by
  cases a with
  | scalar x =>
      cases b with
      | scalar y =>
          rw [same_scalar, Scalar.same_of_text text, decide_eq_true_eq, scalar.injEq]
      | _ => simp [same, same?, sameWithin]
  | _ =>
      rcases text with text | text
      · cases text
      · cases b with
        | scalar _ => simp [same, same?, sameWithin]
        | _ => cases text

end Value

end ServiceDoc
