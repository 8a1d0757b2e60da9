import ServiceDoc.Operation.Template
import ServiceDoc.Proofs.Text.Pieces
import Mathlib.Data.List.Induction

/-!
# Pieces of path templates

A path template is written from pieces: plain text, simple placeholders, and at most one placeholder
with a pattern. Expanding it replaces one placeholder after the other in the text, and each time the
text is again written from pieces.
-/

namespace ServiceDoc

namespace Template

/-! ## Placeholders of a text -/

/-- The names between braces, in order, in the rest of a text, given what has been read since a
brace was opened; nothing if the braces are not in pairs. -/
def bracedFrom? : Option (List Char) → List Char → Option (List (List Char))
  | none, [] => some []
  | some _, [] => none
  | none, c :: rest =>
    if c = '\x7b' then bracedFrom? (some []) rest
    else if c = '\x7d' then none
    else bracedFrom? none rest
  | some read, c :: rest =>
    if c = '\x7d' then (bracedFrom? none rest).map (read :: ·)
    else if c = '\x7b' then none
    else bracedFrom? (some (read ++ [c])) rest

/-- The names between the braces of a path, in order; nothing if the braces are not in pairs. -/
def bracedNames? (path : String) : Option (List String) :=
  (bracedFrom? none path.toList).map (List.map String.ofList)

/-- Text without braces. -/
def IsPlain (text : List Char) : Prop := '\x7b' ∉ text ∧ '\x7d' ∉ text

/-- What a simple placeholder can hold. -/
def IsName (name : List Char) : Prop := IsPlain name ∧ '=' ∉ name

instance (text : List Char) : Decidable (IsPlain text) := inferInstanceAs (Decidable (_ ∧ _))

instance (name : List Char) : Decidable (IsName name) := inferInstanceAs (Decidable (_ ∧ _))

variable {text name pattern before after rest : List Char} {names : List (List Char)}

theorem IsPlain.append (first : IsPlain before) (second : IsPlain after) :
    IsPlain (before ++ after) :=
  ⟨fun member => (List.mem_append.mp member).elim first.1 second.1,
    fun member => (List.mem_append.mp member).elim first.2 second.2⟩

/-- No brace is opened where one is closed. -/
theorem IsPlain.notMem_closed (plain : IsPlain text) : '\x7b' ∉ text ++ ['\x7d'] :=
  fun member => (List.mem_append.mp member).elim plain.1 (by decide)

theorem bracedFrom?_append_of_isPlain (plain : IsPlain text) (rest : List Char) :
    bracedFrom? none (text ++ rest) = bracedFrom? none rest := by
  induction text with
  | nil => rfl
  | cons c text ih =>
      obtain ⟨not_opened, opened⟩ := not_or.mp fun member => plain.1 (List.mem_cons.mpr member)
      obtain ⟨not_closed, closed⟩ := not_or.mp fun member => plain.2 (List.mem_cons.mpr member)
      rw [List.cons_append, bracedFrom?, if_neg (Ne.symm not_opened), if_neg (Ne.symm not_closed)]
      exact ih ⟨opened, closed⟩

theorem bracedFrom?_closing (plain : IsPlain name) (read rest : List Char) :
    bracedFrom? (some read) (name ++ '\x7d' :: rest) =
      (bracedFrom? none rest).map ((read ++ name) :: ·) := by
  induction name generalizing read with
  | nil => simp [bracedFrom?]
  | cons c name ih =>
      obtain ⟨not_opened, opened⟩ := not_or.mp fun member => plain.1 (List.mem_cons.mpr member)
      obtain ⟨not_closed, closed⟩ := not_or.mp fun member => plain.2 (List.mem_cons.mpr member)
      rw [List.cons_append, bracedFrom?, if_neg (Ne.symm not_closed), if_neg (Ne.symm not_opened),
        ih ⟨opened, closed⟩, List.append_assoc]
      rfl

/-- A text holds names between braces, whatever follows it. -/
def Holds (text : List Char) (names : List (List Char)) : Prop :=
  ∀ rest, bracedFrom? none (text ++ rest) = (bracedFrom? none rest).map (names ++ ·)

namespace Holds

variable {others : List (List Char)}

theorem plain (plain : IsPlain text) : Holds text [] := by
  intro rest
  rw [bracedFrom?_append_of_isPlain plain]
  exact Option.map_id'.symm

theorem placeholder (plain : IsPlain name) : Holds (Template.placeholder name) [name] := by
  intro rest
  rw [Template.placeholder, List.cons_append, List.append_assoc, bracedFrom?, if_pos rfl]
  exact bracedFrom?_closing plain [] rest

theorem append (first : Holds before names) (second : Holds after others) :
    Holds (before ++ after) (names ++ others) := by
  intro rest
  rw [List.append_assoc, first, second, Option.map_map]
  exact congrArg (Option.map · _) (funext fun _ => (List.append_assoc _ _ _).symm)

/-- The names are those that are read from the text. -/
theorem bracedNames?_eq (holds : Holds text names) :
    bracedNames? (String.ofList text) = some (names.map String.ofList) := by
  have whole := holds []
  rw [List.append_nil] at whole
  rw [bracedNames?, String.toList_ofList, whole]
  simp [bracedFrom?]

/-- The pieces that slashes join hold all names together. -/
theorem joinWith_cons {pieces : List (List Char)} (first : Holds text names)
    (holds : Holds (Text.joinWith ['/'] pieces) others) :
    Holds (Text.joinWith ['/'] (text :: pieces)) (names ++ others) := by
  cases pieces with
  | nil =>
      have whole := first.append holds
      rwa [Text.joinWith, List.append_nil] at whole
  | cons piece pieces =>
      rw [Text.joinWith]
      · exact (List.append_nil names ▸ first.append (.plain (by decide))).append holds
      · exact List.cons_ne_nil _ _

end Holds

/-! ## Pieces -/

/-- What a template is written from. -/
inductive Piece where
  | text (text : List Char)
  | name (name : List Char)
  | pattern (pattern : Pattern)

/-- What stands between the braces of a placeholder with a pattern. -/
def Pattern.inner (p : Pattern) : List Char := p.name ++ '=' :: p.pattern

/-- A placeholder with a pattern has a name and a pattern without braces, both of them not empty. -/
structure Pattern.IsFormed (p : Pattern) : Prop where
  named : IsName p.name
  some_name : p.name ≠ []
  plain : IsPlain p.pattern
  some_pattern : p.pattern ≠ []

namespace Piece

/-- The text of a piece. -/
def written : Piece → List Char
  | .text text => text
  | .name name => placeholder name
  | .pattern pattern => pattern.source

/-- The name in a simple placeholder. -/
def name? : Piece → Option (List Char)
  | .name name => some name
  | _ => none

/-- The placeholder with a pattern. -/
def pattern? : Piece → Option Pattern
  | .pattern pattern => some pattern
  | _ => none

/-- What stands between braces. -/
def inner? : Piece → Option (List Char)
  | .text _ => none
  | .name name => some name
  | .pattern pattern => some pattern.inner

/-- No piece has braces inside, and names have no equals signs. -/
def IsFormed : Piece → Prop
  | .text text => IsPlain text
  | .name name => IsName name
  | .pattern pattern => pattern.IsFormed

end Piece

/-- The text that pieces write. -/
def written (pieces : List Piece) : List Char := pieces.flatMap Piece.written

/-- The names in the simple placeholders. -/
def namesOf (pieces : List Piece) : List (List Char) := pieces.filterMap Piece.name?

/-- The placeholders with patterns. -/
def patternsOf (pieces : List Piece) : List Pattern := pieces.filterMap Piece.pattern?

/-- The pieces of a path template: its simple placeholders have names, and at most one placeholder
has a pattern. -/
structure IsTemplate (pieces : List Piece) : Prop where
  formed : ∀ piece ∈ pieces, piece.IsFormed
  named : ∀ name ∈ namesOf pieces, name ≠ []
  /-- At most one placeholder has a pattern. -/
  single : (patternsOf pieces).length ≤ 1

instance (p : Pattern) : Decidable p.IsFormed :=
  decidable_of_iff (IsName p.name ∧ p.name ≠ [] ∧ IsPlain p.pattern ∧ p.pattern ≠ [])
    ⟨fun ⟨named, some_name, plain, some_pattern⟩ => ⟨named, some_name, plain, some_pattern⟩,
      fun ⟨named, some_name, plain, some_pattern⟩ => ⟨named, some_name, plain, some_pattern⟩⟩

instance : (piece : Piece) → Decidable piece.IsFormed
  | .text text => inferInstanceAs (Decidable (IsPlain text))
  | .name name => inferInstanceAs (Decidable (IsName name))
  | .pattern p => inferInstanceAs (Decidable p.IsFormed)

instance (pieces : List Piece) : Decidable (IsTemplate pieces) :=
  decidable_of_iff ((∀ piece ∈ pieces, piece.IsFormed) ∧ (∀ name ∈ namesOf pieces, name ≠ []) ∧
      (patternsOf pieces).length ≤ 1)
    ⟨fun ⟨formed, named, single⟩ => ⟨formed, named, single⟩,
      fun ⟨formed, named, single⟩ => ⟨formed, named, single⟩⟩

variable {p : Pattern} {piece : Piece} {pieces : List Piece}

theorem Piece.name?_eq_some : piece.name? = some name ↔ piece = .name name := by
  cases piece <;> simp [name?]

theorem Piece.pattern?_eq_some : piece.pattern? = some p ↔ piece = .pattern p := by
  cases piece <;> simp [pattern?]

theorem mem_namesOf : name ∈ namesOf pieces ↔ Piece.name name ∈ pieces := by
  simp [namesOf, Piece.name?_eq_some]

theorem mem_patternsOf : p ∈ patternsOf pieces ↔ Piece.pattern p ∈ pieces := by
  simp [patternsOf, Piece.pattern?_eq_some]

theorem placeholder_append (name rest : List Char) :
    placeholder name ++ rest = '\x7b' :: (name ++ '\x7d' :: rest) := by
  simp [placeholder]

theorem Pattern.source_eq (p : Pattern) : p.source = placeholder p.inner := by
  simp [source, placeholder, inner]

theorem Pattern.IsFormed.plain_inner (formed : p.IsFormed) : IsPlain p.inner := by
  have equals : IsPlain ['='] := by decide
  exact formed.named.1.append (equals.append formed.plain)

theorem written_cons (piece : Piece) (pieces : List Piece) :
    written (piece :: pieces) = piece.written ++ written pieces := List.flatMap_cons

theorem written_append (before after : List Piece) :
    written (before ++ after) = written before ++ written after := List.flatMap_append

/-- What passes a test is taken up to the first character that does not. -/
theorem takeWhile_append_cons {test : Char → Bool} {c : Char} (pass : ∀ d ∈ before, test d = true)
    (stop : test c = false) : (before ++ c :: after).takeWhile test = before := by
  rw [List.takeWhile_append_of_pos pass, List.takeWhile_cons_of_neg (by simp [stop]),
    List.append_nil]

/-! ## Simple placeholders -/

theorem simpleHere?_placeholder (named : IsName name) (nonempty : name ≠ []) (rest : List Char) :
    simpleHere? (placeholder name ++ rest) = some (name, rest) := by
  have taken : (name ++ '\x7d' :: rest).takeWhile (fun c => decide (c ≠ '=' ∧ c ≠ '\x7d')) = name :=
    takeWhile_append_cons (fun c member => decide_eq_true
      ⟨fun same => named.2 (same ▸ member), fun same => named.1.2 (same ▸ member)⟩) (by decide)
  rw [placeholder_append]
  simp only [simpleHere?, taken, List.drop_left, List.isEmpty_eq_false_iff.mpr nonempty]

theorem simpleHere?_source (formed : p.IsFormed) (rest : List Char) :
    simpleHere? (p.source ++ rest) = none := by
  have taken : (p.name ++ '=' :: (p.pattern ++ '\x7d' :: rest)).takeWhile
      (fun c => decide (c ≠ '=' ∧ c ≠ '\x7d')) = p.name :=
    takeWhile_append_cons (fun c member => decide_eq_true
      ⟨fun same => formed.named.2 (same ▸ member),
        fun same => formed.named.1.2 (same ▸ member)⟩) (by decide)
  rw [p.source_eq, placeholder_append, Pattern.inner, List.append_assoc, List.cons_append]
  simp only [simpleHere?, taken, List.drop_left, List.isEmpty_eq_false_iff.mpr formed.some_name]
  rfl

theorem simpleHere?_cons_of_ne {c : Char} (differ : c ≠ '\x7b') (rest : List Char) :
    simpleHere? (c :: rest) = none := by
  unfold simpleHere?
  split
  next same => exact (differ (List.cons.inj same).1).elim
  next => rfl

/-- Text in which no brace is opened has no simple placeholders. -/
theorem simpleNames_append_of_notMem (absent : '\x7b' ∉ before) (fuel : Nat) :
    simpleNames (before.length + fuel) (before ++ rest) = simpleNames fuel rest := by
  induction before with
  | nil => simp
  | cons c before ih =>
      obtain ⟨differ, absent⟩ := not_or.mp fun member => absent (List.mem_cons.mpr member)
      rw [List.length_cons, Nat.add_right_comm, List.cons_append, simpleNames,
        simpleHere?_cons_of_ne (Ne.symm differ)]
      exact ih absent

/-- A simple placeholder is found where it starts. -/
theorem simpleNames_placeholder (named : IsName name) (nonempty : name ≠ []) (fuel : Nat) :
    simpleNames (fuel + 1) (placeholder name ++ rest) = name :: simpleNames fuel rest := by
  have here := simpleHere?_placeholder named nonempty rest
  rw [placeholder_append] at here ⊢
  rw [simpleNames, here]

/-- A placeholder with a pattern is no simple one, and has none inside. -/
theorem simpleNames_source (formed : p.IsFormed) (fuel : Nat) :
    simpleNames (p.source.length + fuel) (p.source ++ rest) = simpleNames fuel rest := by
  have here := simpleHere?_source formed rest
  have source : p.source = '\x7b' :: (p.inner ++ ['\x7d']) := p.source_eq
  rw [source, List.cons_append] at here ⊢
  rw [List.length_cons, Nat.add_right_comm, simpleNames, here]
  exact simpleNames_append_of_notMem formed.plain_inner.notMem_closed fuel

/-- The names that are found in a template are those of its simple placeholders. -/
theorem simpleNames_written (formed : ∀ piece ∈ pieces, piece.IsFormed)
    (nonempty : ∀ name ∈ namesOf pieces, name ≠ []) {fuel : Nat}
    (enough : (written pieces).length ≤ fuel) :
    simpleNames fuel (written pieces) = namesOf pieces := by
  induction pieces generalizing fuel with
  | nil => cases fuel <;> rfl
  | cons piece pieces ih =>
      obtain ⟨first, later⟩ := List.forall_mem_cons.mp formed
      rw [written_cons, List.length_append] at enough
      rw [written_cons]
      cases piece with
      | text text =>
          obtain ⟨spare, rfl⟩ := Nat.exists_eq_add_of_le (Nat.le_of_add_right_le enough)
          exact (simpleNames_append_of_notMem first.1 spare).trans
            (ih later nonempty (Nat.le_of_add_le_add_left enough))
      | name name =>
          obtain ⟨some_name, others⟩ := List.forall_mem_cons.mp nonempty
          have length : (Piece.name name).written.length = name.length + 2 := by
            simp [Piece.written, placeholder]
          rw [length] at enough
          obtain ⟨spare, rfl⟩ : ∃ spare, fuel = spare + 1 := ⟨fuel - 1, by omega⟩
          refine (simpleNames_placeholder first some_name spare).trans ?_
          rw [ih later others (by omega)]
          rfl
      | pattern p =>
          obtain ⟨spare, rfl⟩ := Nat.exists_eq_add_of_le (Nat.le_of_add_right_le enough)
          exact (simpleNames_source first spare).trans
            (ih later nonempty (Nat.le_of_add_le_add_left enough))

/-! ## Placeholders with patterns -/

theorem patternHere?_cons_of_ne {c : Char} (differ : c ≠ '\x7b') (rest : List Char) :
    patternHere? (c :: rest) = none := by
  unfold patternHere?
  split
  next same => exact (differ (List.cons.inj same).1).elim
  next => rfl

theorem patternHere?_placeholder (named : IsName name) (rest : List Char) :
    patternHere? (placeholder name ++ rest) = none := by
  have taken : (name ++ '\x7d' :: rest).takeWhile
      (fun c => decide (c ≠ '=' ∧ c ≠ '\x7b' ∧ c ≠ '\x7d')) = name :=
    takeWhile_append_cons (fun c member => decide_eq_true ⟨fun same => named.2 (same ▸ member),
      fun same => named.1.1 (same ▸ member), fun same => named.1.2 (same ▸ member)⟩) (by decide)
  rw [placeholder_append]
  simp only [patternHere?, taken, List.drop_left]
  cases name <;> rfl

theorem patternHere?_source (formed : p.IsFormed) (rest : List Char) :
    patternHere? (p.source ++ rest) = some p := by
  obtain ⟨named, some_name, plain, some_pattern⟩ := formed
  have name_taken : (p.name ++ '=' :: (p.pattern ++ '\x7d' :: rest)).takeWhile
      (fun c => decide (c ≠ '=' ∧ c ≠ '\x7b' ∧ c ≠ '\x7d')) = p.name :=
    takeWhile_append_cons (fun c member => decide_eq_true ⟨fun same => named.2 (same ▸ member),
      fun same => named.1.1 (same ▸ member), fun same => named.1.2 (same ▸ member)⟩) (by decide)
  have pattern_taken : (p.pattern ++ '\x7d' :: rest).takeWhile
      (fun c => decide (c ≠ '\x7b' ∧ c ≠ '\x7d')) = p.pattern :=
    takeWhile_append_cons (fun c member => decide_eq_true
      ⟨fun same => plain.1 (same ▸ member), fun same => plain.2 (same ▸ member)⟩) (by decide)
  rw [p.source_eq, placeholder_append, Pattern.inner, List.append_assoc, List.cons_append]
  simp only [patternHere?, name_taken, pattern_taken, List.drop_left,
    List.isEmpty_eq_false_iff.mpr some_name, List.isEmpty_eq_false_iff.mpr some_pattern]

/-- Text in which no brace is opened has no placeholder with a pattern. -/
theorem pattern?_append_of_notMem (absent : '\x7b' ∉ before) (rest : List Char) :
    Template.pattern? (before ++ rest) = Template.pattern? rest := by
  induction before with
  | nil => rfl
  | cons c before ih =>
      obtain ⟨differ, absent⟩ := not_or.mp fun member => absent (List.mem_cons.mpr member)
      rw [List.cons_append, Template.pattern?, patternHere?_cons_of_ne (Ne.symm differ),
        Option.none_or]
      exact ih absent

/-- What is found in a template is its first placeholder with a pattern. -/
theorem pattern?_written (formed : ∀ piece ∈ pieces, piece.IsFormed) :
    Template.pattern? (written pieces) = (patternsOf pieces).head? := by
  induction pieces with
  | nil => rfl
  | cons piece pieces ih =>
      obtain ⟨first, later⟩ := List.forall_mem_cons.mp formed
      rw [written_cons]
      cases piece with
      | text text => exact (pattern?_append_of_notMem first.1 _).trans (ih later)
      | name name =>
          have here := patternHere?_placeholder first (written pieces)
          change Template.pattern? ('\x7b' :: (name ++ ['\x7d'] ++ written pieces)) = _
          change patternHere? ('\x7b' :: (name ++ ['\x7d'] ++ written pieces)) = _ at here
          rw [Template.pattern?, here, Option.none_or,
            pattern?_append_of_notMem first.1.notMem_closed]
          exact ih later
      | pattern p =>
          have here := patternHere?_source first (written pieces)
          change Template.pattern? ('\x7b' :: _) = _
          change patternHere? ('\x7b' :: _) = _ at here
          rw [Template.pattern?, here]
          rfl

/-! ## Replacing -/

/-- A piece is plain, or it is something plain in braces. -/
theorem Piece.IsFormed.cases (formed : piece.IsFormed) :
    (piece.inner? = none ∧ IsPlain piece.written) ∨
      ∃ inner, piece.inner? = some inner ∧ IsPlain inner ∧ piece.written = placeholder inner := by
  cases piece with
  | text text => exact .inl ⟨rfl, formed⟩
  | name name => exact .inr ⟨name, rfl, formed.1, rfl⟩
  | pattern p => exact .inr ⟨p.inner, rfl, Pattern.IsFormed.plain_inner formed, p.source_eq⟩

/-- A search for something in braces passes over anything else in braces. -/
theorem cutFirst_placeholder_of_ne {other : List Char} (plain : IsPlain name)
    (other_plain : IsPlain other) (differ : other ≠ name) :
    Text.cutFirst (placeholder name) (placeholder other ++ rest) =
      (Text.cutFirst (placeholder name) rest).map fun found =>
        (placeholder other ++ found.1, found.2) := by
  have upto {inner : List Char} (plain : IsPlain inner) (tail : List Char) :
      (inner ++ '\x7d' :: tail).takeWhile (fun c => decide (c ≠ '\x7d')) = inner :=
    takeWhile_append_cons (fun c member => decide_eq_true fun same => plain.2 (same ▸ member))
      (by decide)
  have misses : ¬(placeholder name).isPrefixOf ('\x7b' :: (other ++ ['\x7d'] ++ rest)) = true := by
    intro starts
    obtain ⟨tail, same⟩ := List.isPrefixOf_iff_prefix.mp starts
    rw [placeholder_append, List.append_assoc] at same
    have taken := upto plain tail
    rw [(List.cons.inj same).2, List.singleton_append, upto other_plain rest] at taken
    exact differ taken
  change Text.cutFirst _ ('\x7b' :: (other ++ ['\x7d'] ++ rest)) = _
  rw [Text.cutFirst, if_neg misses, placeholder,
    Text.cutFirst_append_of_notMem other_plain.notMem_closed, Option.map_map]
  rfl

/-- What stands in braces is found where it first does. -/
theorem cutFirst_written {before : List Piece} (formed : ∀ piece ∈ before, piece.IsFormed)
    (plain : IsPlain name) (absent : name ∉ before.filterMap Piece.inner?) (rest : List Char) :
    Text.cutFirst (placeholder name) (written before ++ (placeholder name ++ rest)) =
      some (written before, rest) := by
  induction before with
  | nil => exact Text.cutFirst_append_self (List.cons_ne_nil _ _)
  | cons piece before ih =>
      obtain ⟨first, later⟩ := List.forall_mem_cons.mp formed
      rw [written_cons, List.append_assoc]
      rcases first.cases with ⟨outside, other_plain⟩ | ⟨inner, inside, other_plain, braced⟩
      · rw [List.filterMap_cons_none outside] at absent
        have passed := ih later absent
        rw [placeholder] at passed ⊢
        rw [Text.cutFirst_append_of_notMem other_plain.1, passed]
        rfl
      · rw [List.filterMap_cons_some inside] at absent
        obtain ⟨differ, absent⟩ := not_or.mp fun member => absent (List.mem_cons.mpr member)
        rw [braced, cutFirst_placeholder_of_ne plain other_plain (Ne.symm differ), ih later absent]
        rfl

/-- What stands in braces is replaced where it first does. -/
theorem replaceFirst_written {before : List Piece} (formed : ∀ piece ∈ before, piece.IsFormed)
    (plain : IsPlain name) (absent : name ∉ before.filterMap Piece.inner?) (new rest : List Char) :
    Text.replaceFirst (placeholder name) new (written before ++ (placeholder name ++ rest)) =
      written before ++ new ++ rest := by
  rw [Text.replaceFirst, cutFirst_written formed plain absent]

/-- Replacing a simple placeholder by another one gives a template with the new name in place of the
old one, and the same placeholders with patterns. -/
theorem replaceFirst_name {new : List Char} (formed : ∀ piece ∈ pieces, piece.IsFormed)
    (member : name ∈ namesOf pieces) (named : IsName new) :
    ∃ replaced, (∀ piece ∈ replaced, piece.IsFormed) ∧
      written replaced =
        Text.replaceFirst (placeholder name) (placeholder new) (written pieces) ∧
      (name :: namesOf replaced).Perm (new :: namesOf pieces) ∧
      patternsOf replaced = patternsOf pieces := by
  have old_named : IsName name := formed _ (mem_namesOf.mp member)
  obtain ⟨before, after, rfl, fresh⟩ := List.eq_append_cons_of_mem (mem_namesOf.mp member)
  -- A pattern is not taken for the name, since it stands behind an equals sign.
  have absent : name ∉ before.filterMap Piece.inner? := by
    intro inside
    obtain ⟨piece, earlier, inner⟩ := List.mem_filterMap.mp inside
    cases piece with
    | text => contradiction
    | name other => exact fresh (Option.some.inj inner ▸ earlier)
    | pattern p =>
        have equals : '=' ∈ p.inner := List.mem_append_right _ (.head _)
        exact old_named.2 (Option.some.inj inner ▸ equals)
  obtain ⟨formed_before, formed_after⟩ := List.forall_mem_append.mp formed
  refine ⟨before ++ .name new :: after, ?_, ?_, ?_, ?_⟩
  · exact List.forall_mem_append.mpr ⟨formed_before, List.forall_mem_cons.mpr
      ⟨named, (List.forall_mem_cons.mp formed_after).2⟩⟩
  · rw [written_append, written_append, written_cons, written_cons]
    exact (List.append_assoc _ _ _ ▸
      replaceFirst_written formed_before old_named.1 absent (placeholder new) (written after)).symm
  · simp only [namesOf, List.filterMap_append, List.filterMap_cons, Piece.name?]
    exact (List.perm_middle.cons name).trans
      ((List.Perm.swap _ _ _).trans (List.perm_middle.symm.cons new))
  · simp only [patternsOf, List.filterMap_append, List.filterMap_cons, Piece.pattern?]

/-! ## Results -/

/-- Without patterns, a template holds the names of its simple placeholders. -/
theorem holds_written (formed : ∀ piece ∈ pieces, piece.IsFormed)
    (simple : ∀ piece ∈ pieces, piece.pattern? = none) :
    Holds (written pieces) (namesOf pieces) := by
  induction pieces with
  | nil => exact .plain (by decide)
  | cons piece pieces ih =>
      obtain ⟨first, later⟩ := List.forall_mem_cons.mp formed
      obtain ⟨no_pattern, rest⟩ := List.forall_mem_cons.mp simple
      rw [written_cons]
      cases piece with
      | text text => exact Holds.append (.plain first) (ih later rest)
      | name name => exact Holds.append (.placeholder first.1) (ih later rest)
      | pattern => contradiction

/-- With its pattern replaced, a template also holds the names that the replacement holds. -/
theorem holds_replaceFirst_source {new : List Char} (formed : ∀ piece ∈ pieces, piece.IsFormed)
    (single : patternsOf pieces = [p]) (holds : Holds new names) :
    ∃ all, Holds (Text.replaceFirst p.source new (written pieces)) all ∧
      all.Perm (namesOf pieces ++ names) := by
  obtain ⟨before, piece, after, rfl, simple, here, later⟩ := List.filterMap_eq_cons_iff.mp single
  have simple_after : ∀ piece ∈ after, piece.pattern? = none := List.filterMap_eq_nil_iff.mp later
  obtain ⟨formed_before, formed_rest⟩ := List.forall_mem_append.mp formed
  obtain ⟨pattern_formed, formed_after⟩ := List.forall_mem_cons.mp formed_rest
  obtain rfl := Piece.pattern?_eq_some.mp here
  have absent : p.inner ∉ before.filterMap Piece.inner? := by
    intro inside
    obtain ⟨piece, earlier, inner⟩ := List.mem_filterMap.mp inside
    have equals : '=' ∈ p.inner := List.mem_append_right _ (.head _)
    cases piece with
    | text => contradiction
    | name name => exact (formed_before _ earlier).2 (Option.some.inj inner ▸ equals)
    | pattern => exact (Option.some_ne_none _ (simple _ earlier)).elim
  have replaced : Text.replaceFirst p.source new (written (before ++ .pattern p :: after)) =
      written before ++ new ++ written after := by
    rw [written_append, written_cons, Piece.written, p.source_eq]
    exact replaceFirst_written formed_before pattern_formed.plain_inner absent new _
  refine ⟨namesOf before ++ names ++ namesOf after, replaced ▸ ((holds_written formed_before
    simple).append holds).append (holds_written formed_after simple_after), ?_⟩
  rw [namesOf, namesOf, namesOf, List.filterMap_append, List.filterMap_cons_none rfl,
    List.append_assoc, List.append_assoc]
  exact List.perm_append_comm.append_left _

theorem isPlain_of_mem_cutAt {separator : Char} (plain : IsPlain text) {part : List Char}
    (member : part ∈ Text.cutAt separator text) : IsPlain part := by
  have inside := (Text.infix_joinWith member [separator]).subset
  rw [Text.joinWith_cutAt] at inside
  exact ⟨fun opened => plain.1 (inside opened), fun closed => plain.2 (inside closed)⟩

/-- The expanded parts of a pattern hold the names of the resources. -/
theorem holds_expandParts {resource : List Char → List Char} {parts : List (List Char)}
    (plain : ∀ part ∈ parts, IsPlain part)
    (named : ∀ part, IsPlain part → IsPlain (resource part)) :
    Holds (Text.joinWith ['/'] (expandParts resource parts).2) (expandParts resource parts).1 := by
  induction parts using List.twoStepInduction with
  | nil => exact .plain ⟨List.not_mem_nil, List.not_mem_nil⟩
  | singleton part => exact .plain (plain part (.head _))
  | cons_cons collection second rest ih =>
      obtain ⟨first, others⟩ := List.forall_mem_cons.mp plain
      exact Holds.joinWith_cons (.plain first) (Holds.joinWith_cons
        (.placeholder (named collection first)) (ih (List.forall_mem_cons.mp others).2))

end Template

end ServiceDoc
