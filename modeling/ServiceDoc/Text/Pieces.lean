/-!
# Cutting text into pieces

Searching, cutting and replacing in lists of characters. Cutting at a separator and joining with
it again gives the text back (`joinWith_splitAt`).
-/

namespace ServiceDoc.Text

/-- Cut at every separator, which itself is left out. -/
def cutAt (separator : Char) : List Char → List (List Char)
  | [] => [[]]
  | c :: rest =>
    if c = separator then [] :: cutAt separator rest
    else match cutAt separator rest with
      | [] => [[c]]
      | piece :: pieces => (c :: piece) :: pieces

/-- Put the separator between the pieces. -/
def joinWith (separator : List Char) : List (List Char) → List Char
  | [] => []
  | [piece] => piece
  | piece :: pieces => piece ++ separator ++ joinWith separator pieces

theorem cutAt_ne_nil (separator : Char) (text : List Char) : cutAt separator text ≠ [] := by
  cases text with
  | nil => simp [cutAt]
  | cons c rest =>
      simp only [cutAt]
      split
      · simp
      · split <;> simp

/-- Joining the pieces of a cut with the separator gives the text back. -/
theorem joinWith_cutAt (separator : Char) (text : List Char) :
    joinWith [separator] (cutAt separator text) = text := by
  induction text with
  | nil => rfl
  | cons c rest ih =>
      have nonempty := cutAt_ne_nil separator rest
      simp only [cutAt]
      split
      next same =>
        subst same
        cases pieces : cutAt c rest with
        | nil => exact absurd pieces nonempty
        | cons piece others =>
            rw [pieces] at ih
            simp [joinWith, ih]
      next differ =>
        cases pieces : cutAt separator rest with
        | nil => exact absurd pieces nonempty
        | cons piece others =>
            rw [pieces] at ih
            cases others with
            | nil => simpa [joinWith] using ih
            | cons next more => simpa [joinWith] using ih

/-- The text before and after the first occurrence of a pattern. -/
def cutFirst (pattern : List Char) : List Char → Option (List Char × List Char)
  | [] => if pattern.isEmpty then some ([], []) else none
  | c :: rest =>
    if pattern.isPrefixOf (c :: rest) then some ([], (c :: rest).drop pattern.length)
    else (cutFirst pattern rest).map fun (before, after) => (c :: before, after)

/-- Replace the first occurrence of a pattern, if there is one. -/
def replaceFirst (pattern replacement text : List Char) : List Char :=
  match cutFirst pattern text with
  | some (before, after) => before ++ replacement ++ after
  | none => text

/-- The text before and after the first separator; without one, all of it is before. -/
def cutOnce (separator : Char) (text : List Char) : List Char × List Char :=
  (text.takeWhile (· ≠ separator), (text.dropWhile (· ≠ separator)).drop 1)

/-- Join strings with a separator between them. -/
def join (separator : String) (pieces : List String) : String :=
  String.intercalate separator pieces

/-- The lines of a string, cut at line feeds. -/
def lines (text : String) : List String :=
  (cutAt '\n' text.toList).map String.ofList

end ServiceDoc.Text
