import ServiceDoc.Comment.Block
import ServiceDoc.Proofs.Json.Grammar
import ServiceDoc.Proofs.Text.Pieces
import Mathlib.Data.List.Induction

/-!
# Scanning a comment for blocks

Scanning goes over a comment character by character. At a marker of its own it takes the marker, the
JSON object behind it and everything up to the next closing bracket; a marker of another tool is
text like any other.
-/

namespace ServiceDoc.Comment

variable {text before after rest whole : List Char} {marker : Marker}
  {result : Cut}

/-! ### Markers -/

/-- A text starts with a marker: a name in its sign, and the blanks behind it. -/
structure Marker.Starts (marker : Marker) (text : List Char) : Prop where
  before : marker.before = []
  name : marker.name ≠ [] ∧ ∀ c ∈ marker.name, isNameChar c = true
  source : ∃ blanks, (∀ c ∈ blanks, Text.isBlank c = true) ∧
    marker.source = '[' :: '#' :: (marker.name ++ ':' :: blanks)
  text : text = marker.source ++ marker.after

theorem starts_of_markerHere? (found : markerHere? text = some marker) : marker.Starts text := by
  unfold markerHere? at found
  split at found
  next rest =>
    extract_lets name at found
    split at found
    next rest' named opened =>
      cases found
      have name_parts := List.prefix_iff_eq_append.mp (List.takeWhile_prefix isNameChar (l := rest))
      have blank_parts :=
        List.prefix_iff_eq_append.mp (List.takeWhile_prefix Text.isBlank (l := rest'))
      refine ⟨rfl, ⟨by simpa using named, ?_⟩, ⟨rest'.takeWhile Text.isBlank, ?_, rfl⟩, ?_⟩
      · intro c member
        exact List.mem_takeWhile_imp member
      · intro c member
        exact List.mem_takeWhile_imp member
      · change name ++ rest.drop name.length = rest at name_parts
        rw [opened] at name_parts
        rw [← name_parts]
        dsimp only
        rw [List.cons_append, List.cons_append, List.append_assoc, List.cons_append, blank_parts]
    · cases found
  · cases found

/-- A name in its sign and the blanks behind it are a marker. -/
theorem markerHere?_append {name blanks : List Char} (named : name ≠ [])
    (name_chars : ∀ c ∈ name, isNameChar c = true)
    (blank : ∀ c ∈ blanks, Text.isBlank c = true)
    (stop : ∀ c, after.head? = some c → Text.isBlank c = false) :
    markerHere? ('[' :: '#' :: (name ++ ':' :: (blanks ++ after))) =
      some ⟨[], name, '[' :: '#' :: (name ++ ':' :: blanks), after⟩ := by
  have name_taken : (name ++ ':' :: (blanks ++ after)).takeWhile isNameChar = name := by
    apply Text.takeWhile_append_of_stop name_chars
    rintro c ⟨⟩
    rfl
  have blanks_taken := Text.takeWhile_append_of_stop blank stop
  simp only [markerHere?, name_taken, List.isEmpty_eq_false_iff.mpr named, List.drop_left,
    blanks_taken]

theorem length_after_lt (starts : marker.Starts text) : marker.after.length < text.length := by
  obtain ⟨blanks, -, source⟩ := starts.source
  rw [starts.text, source]
  simp
  omega

/-- Behind its first character a marker holds no opening bracket. -/
theorem notMem_tail_source (starts : marker.Starts text) : '[' ∉ marker.source.tail := by
  obtain ⟨blanks, blank, source⟩ := starts.source
  rw [source]
  intro member
  simp only [List.tail_cons, List.mem_cons, List.mem_append, Char.reduceEq, false_or] at member
  rcases member with in_name | in_blanks
  · exact absurd (starts.name.2 _ in_name) (by decide +kernel)
  · exact absurd (blank _ in_blanks) (by decide)

/-! ### Steps of the scan -/

theorem length_after_lt_of_nextMarker? (found : nextMarker? text = some marker) :
    marker.after.length < text.length := by
  induction text generalizing marker with
  | nil => cases found
  | cons c rest ih =>
      rw [nextMarker?] at found
      split at found
      next here =>
        cases found
        exact length_after_lt (starts_of_markerHere? here)
      next =>
        obtain ⟨later, found_later, rfl⟩ := Option.map_eq_some_iff.mp found
        have shorter : later.after.length < rest.length := ih found_later
        exact Nat.lt_succ_of_lt shorter

/-- What follows a marker of its own: the entries of the object and the text behind the bracket. -/
def takeBlock (whole : List Char) (key : AnnotationKey) (rest : List Char) :
    Except CommentError (Entries Value × List Char) := do
  let (entries, behind) ← readEntries whole key (whole.length - rest.length) rest
  match Text.cutFirst [']'] behind with
  | none => .error (.unterminated key)
  | some (_, rest) => return (entries, rest)

/-- What is made of a marker, given what is made of the text behind it. -/
def cutAtMarker (whole : List Char) (next : List Char → Except CommentError Cut)
    (marker : Marker) : Except CommentError Cut :=
  if !"openapi-".toList.isPrefixOf marker.name then
    (next marker.after).map (Cut.prepend (marker.before ++ marker.source))
  else
    match AnnotationKey.ofName? (String.ofList marker.name) with
    | none => .error (.unknownKey (String.ofList marker.name))
    | some key => takeBlock whole key marker.after >>= fun taken =>
      (next taken.2).map fun cut => ⟨⟨marker.before, key, taken.1⟩ :: cut.blocks, cut.tail⟩

theorem cutFrom_succ (whole : List Char) (fuel : Nat) (rest : List Char) :
    cutFrom whole (fuel + 1) rest =
      match nextMarker? rest with
      | none => .ok ⟨[], rest⟩
      | some marker => cutAtMarker whole (cutFrom whole fuel) marker := by
  rw [cutFrom]
  cases nextMarker? rest with
  | none => rfl
  | some marker =>
      unfold cutAtMarker takeBlock
      dsimp only
      split
      · rfl
      · cases AnnotationKey.ofName? (String.ofList marker.name) with
        | none => rfl
        | some key =>
            dsimp only
            cases readEntries whole key (whole.length - marker.after.length) marker.after with
            | error error => rfl
            | ok read =>
                cases found : Text.cutFirst [']'] read.2 with
                | none => simp [bind, Except.bind, found]
                | some parts =>
                    simp only [bind, Except.bind, found]
                    rfl

theorem exists_of_readEntries {key : AnnotationKey} {offset : Nat} {entries : Entries Value}
    (read : readEntries whole key offset text = .ok (entries, rest)) :
    ∃ object, Json.ObjectText object entries ∧ text = object ++ rest := by
  unfold readEntries at read
  split at read
  · cases read
  · cases read
  · cases read
  next mark entries' last here =>
    cases read
    exact Json.objectText_of_readHere here
  · cases read

theorem exists_of_takeBlock {key : AnnotationKey} {entries : Entries Value}
    (taken : takeBlock whole key text = .ok (entries, rest)) :
    ∃ object gap, Json.ObjectText object entries ∧ ']' ∉ gap ∧
      text = object ++ (gap ++ ']' :: rest) := by
  obtain ⟨⟨entries', behind⟩, read, closed⟩ := bind_eq_ok.mp taken
  obtain ⟨object, spelled, rfl⟩ := exists_of_readEntries read
  dsimp only at closed
  split at closed
  · cases closed
  next gap rest' found =>
    cases closed
    refine ⟨object, gap, spelled, Text.notMem_of_cutFirst found, ?_⟩
    rw [Text.eq_of_cutFirst found, List.append_assoc]
    rfl

theorem length_lt_of_takeBlock {key : AnnotationKey} {taken : Entries Value × List Char}
    (given : takeBlock whole key text = .ok taken) : taken.2.length < text.length := by
  obtain ⟨object, gap, -, -, rfl⟩ := exists_of_takeBlock given
  simp
  omega

/-- What is made of a marker depends on what is made of shorter texts. -/
theorem cutAtMarker_congr {next other : List Char → Except CommentError Cut}
    (same : ∀ text, text.length ≤ marker.after.length → next text = other text) :
    cutAtMarker whole next marker = cutAtMarker whole other marker := by
  unfold cutAtMarker
  rw [same _ (Nat.le_refl _)]
  split
  · rfl
  · cases AnnotationKey.ofName? (String.ofList marker.name) with
    | none => rfl
    | some key =>
        dsimp only
        cases given : takeBlock whole key marker.after with
        | error error => rfl
        | ok taken =>
            have shorter := length_lt_of_takeBlock given
            change (next taken.2).map _ = (other taken.2).map _
            rw [same _ (Nat.le_of_lt shorter)]

/-- More steps than characters change nothing. -/
theorem cutFrom_congr {fuel other : Nat} (enough : rest.length < fuel)
    (enough_other : rest.length < other) : cutFrom whole fuel rest = cutFrom whole other rest := by
  induction fuel generalizing other rest with
  | zero => omega
  | succ fuel ih =>
      obtain ⟨other, rfl⟩ := Nat.exists_eq_add_of_le' (Nat.zero_lt_of_lt enough_other)
      rw [cutFrom_succ, cutFrom_succ]
      cases found : nextMarker? rest with
      | none => rfl
      | some marker =>
          have shorter := length_after_lt_of_nextMarker? found
          apply cutAtMarker_congr
          intro text shorter_still
          exact ih (by omega) (by omega)

/-- Scan the rest of a text. -/
def cutRest (whole rest : List Char) : Except CommentError Cut :=
  cutFrom whole (rest.length + 1) rest

theorem cutRest_eq (whole rest : List Char) :
    cutRest whole rest =
      match nextMarker? rest with
      | none => .ok ⟨[], rest⟩
      | some marker => cutAtMarker whole (cutRest whole) marker := by
  rw [cutRest, cutFrom_succ]
  cases found : nextMarker? rest with
  | none => rfl
  | some marker =>
      have shorter := length_after_lt_of_nextMarker? found
      apply cutAtMarker_congr
      intro text shorter_still
      exact cutFrom_congr (by omega) (Nat.lt_succ_self _)

theorem Cut.prepend_prepend (first second : List Char) (cut : Cut) :
    (cut.prepend second).prepend first = cut.prepend (first ++ second) := by
  unfold prepend
  cases cut.blocks <;> simp

theorem Cut.prepend_nil (cut : Cut) : cut.prepend [] = cut := by
  obtain ⟨blocks, tail⟩ := cut
  cases blocks <;> rfl

theorem map_prepend_prepend (first second : List Char) (outcome : Except CommentError Cut) :
    (outcome.map (Cut.prepend second)).map (Cut.prepend first) =
      outcome.map (Cut.prepend (first ++ second)) := by
  cases outcome with
  | error error => rfl
  | ok cut => exact congrArg Except.ok (cut.prepend_prepend first second)

/-- Text before a marker is put before what is made of the marker. -/
theorem cutAtMarker_prepend (whole : List Char) (next : List Char → Except CommentError Cut)
    (first : List Char) (marker : Marker) :
    cutAtMarker whole next { marker with before := first ++ marker.before } =
      (cutAtMarker whole next marker).map (Cut.prepend first) := by
  unfold cutAtMarker
  dsimp only
  split
  · rw [map_prepend_prepend, List.append_assoc]
  · cases AnnotationKey.ofName? (String.ofList marker.name) with
    | none => rfl
    | some key =>
        dsimp only
        cases takeBlock whole key marker.after with
        | error error => rfl
        | ok taken =>
            change (next taken.2).map _ = ((next taken.2).map _).map _
            cases next taken.2 <;> rfl

theorem cutRest_of_none {c : Char} (none_here : markerHere? (c :: rest) = none) :
    cutRest whole (c :: rest) = (cutRest whole rest).map (Cut.prepend [c]) := by
  rw [cutRest_eq, cutRest_eq, nextMarker?, none_here]
  cases nextMarker? rest with
  | none => rfl
  | some marker => exact cutAtMarker_prepend whole _ [c] marker

theorem cutRest_of_marker (here : markerHere? text = some marker) :
    cutRest whole text = cutAtMarker whole (cutRest whole) marker := by
  cases text with
  | nil => cases here
  | cons c rest => rw [cutRest_eq, nextMarker?, here]

/-! ### Text between blocks -/

/-- No block starts in a text. -/
def OpensNothing (text : List Char) : Prop := ¬"[#openapi-".toList <:+: text

theorem opensNothing_right (first : List Char) (opens : OpensNothing (first ++ text)) :
    OpensNothing text := by
  intro inside
  exact opens (inside.trans (List.suffix_append first text).isInfix)

/-- A marker that starts in a text ends there if an opening bracket follows it. -/
theorem exists_of_starts (starts : marker.Starts (before ++ rest)) (nonempty : before ≠ [])
    (follows : rest = [] ∨ rest.head? = some '[') :
    ∃ others, before = marker.source ++ others ∧ marker.after = others ++ rest := by
  rcases List.append_eq_append_iff.mp starts.text with ⟨last, source, behind⟩ | inside
  · cases last with
    | nil => exact ⟨[], by simpa using source.symm, by simpa using behind.symm⟩
    | cons c last =>
        exfalso
        obtain ⟨first, others, rfl⟩ := List.exists_cons_of_ne_nil nonempty
        have bracket : c = '[' := by simpa [behind] using follows
        apply notMem_tail_source starts
        simp [source, bracket]
  · exact inside

theorem OpensNothing.foreign (opens : OpensNothing text) (starts : marker.Starts (text ++ rest))
    (inside : ∃ others, text = marker.source ++ others) :
    "openapi-".toList.isPrefixOf marker.name = false := by
  rw [Bool.eq_false_iff]
  intro own
  apply opens
  obtain ⟨others, parts⟩ := inside
  obtain ⟨blanks, -, source⟩ := starts.source
  obtain ⟨name, named⟩ := List.isPrefixOf_iff_prefix.mp own
  refine List.IsPrefix.isInfix ⟨name ++ (':' :: blanks ++ others), ?_⟩
  rw [parts, source, ← named]
  simp

/-- Text in which no block starts stands before whatever follows. -/
theorem cutRest_append (opens : OpensNothing text) (follows : rest = [] ∨ rest.head? = some '[') :
    cutRest whole (text ++ rest) = (cutRest whole rest).map (Cut.prepend text) := by
  -- a marker of another tool is passed at once, so the induction is on the length
  induction length : text.length using Nat.strong_induction_on generalizing text with
  | _ n ih =>
      subst length
      cases text with
      | nil =>
          rw [List.nil_append]
          cases cutRest whole rest with
          | error error => rfl
          | ok cut => exact congrArg Except.ok cut.prepend_nil.symm
      | cons c others =>
          cases here : markerHere? (c :: others ++ rest) with
          | none =>
              have later := ih others.length (Nat.lt_succ_self _) (opensNothing_right [c] opens) rfl
              rw [List.cons_append] at here ⊢
              rw [cutRest_of_none here, later, map_prepend_prepend]
              rfl
          | some marker =>
              have starts := starts_of_markerHere? here
              obtain ⟨behind, parts, after⟩ :=
                exists_of_starts starts (List.cons_ne_nil _ _) follows
              have foreign := opens.foreign starts ⟨behind, parts⟩
              have shorter : behind.length < (c :: others).length := by
                obtain ⟨blanks, -, source⟩ := starts.source
                rw [parts, source]
                simp
                omega
              rw [parts] at opens ⊢
              have later := ih behind.length shorter (opensNothing_right marker.source opens) rfl
              rw [← parts, cutRest_of_marker here, cutAtMarker, foreign, Bool.not_false, if_pos rfl,
                after, later, starts.before, map_prepend_prepend, List.nil_append, ← parts]

/-! ### Blocks -/

/-- A block as it stands in a text. -/
structure BlockText where
  key : AnnotationKey
  /-- What stands between the colon and the object. -/
  opening : List Char
  object : List Char
  /-- The entries of the object. -/
  entries : Entries Value
  /-- What stands between the object and the closing bracket. -/
  closing : List Char

namespace BlockText

variable {block : BlockText}

/-- A block up to the end of its object. -/
def opened (block : BlockText) : List Char :=
  '[' :: '#' :: (block.key.name.toList ++ ':' :: (block.opening ++ block.object))

/-- A block with its closing bracket. -/
def source (block : BlockText) : List Char := block.opened ++ (block.closing ++ [']'])

/-- A key, blanks and a JSON object. -/
structure IsOpened (block : BlockText) : Prop where
  opening : ∀ c ∈ block.opening, Text.isBlank c = true
  object : Json.ObjectText block.object block.entries

/-- What the scan takes for a block ends with the first closing bracket behind the object. -/
structure IsTaken (block : BlockText) : Prop extends block.IsOpened where
  closing : ']' ∉ block.closing

/-- A block in its proper form has nothing but blanks behind the object. -/
structure IsFormed (block : BlockText) : Prop extends block.IsOpened where
  closing : ∀ c ∈ block.closing, Text.isBlank c = true

theorem IsFormed.isTaken (formed : block.IsFormed) : block.IsTaken where
  toIsOpened := formed.toIsOpened
  closing := by
    intro member
    exact absurd (formed.closing _ member) (by decide)

theorem isOwn_name (key : AnnotationKey) : "openapi-".toList.isPrefixOf key.name.toList = true := by
  cases key <;> decide

theorem isNameChar_name (key : AnnotationKey) : ∀ c ∈ key.name.toList, isNameChar c = true := by
  apply List.all_eq_true.mp
  cases key <;> decide +kernel

theorem exists_object (opened : block.IsOpened) :
    ∃ others, block.object = '\x7b' :: others := by
  have spelled := opened.object
  unfold Json.ObjectText at spelled
  generalize piece_eq : Json.Piece.value (.map block.entries) = piece at spelled
  generalize block.object = object at spelled
  cases spelled <;> simp at piece_eq ⊢

theorem markerHere?_opened (opened : block.IsOpened) (rest : List Char) :
    markerHere? (block.opened ++ rest) =
      some ⟨[], block.key.name.toList,
        '[' :: '#' :: (block.key.name.toList ++ ':' :: block.opening), block.object ++ rest⟩ := by
  obtain ⟨others, starts⟩ := exists_object opened
  have named : block.key.name.toList ≠ [] := by
    cases block.key <;> decide
  have stop : ∀ c, (block.object ++ rest).head? = some c → Text.isBlank c = false := by
    rw [starts]
    rintro c ⟨⟩
    rfl
  have found := markerHere?_append named (isNameChar_name block.key) opened.opening stop
  simpa [BlockText.opened] using found

/-- Behind a block that is opened the scan looks for the closing bracket. -/
theorem cutRest_opened (opened : block.IsOpened) (whole rest : List Char) :
    cutRest whole (block.opened ++ rest) =
      match Text.cutFirst [']'] rest with
      | none => .error (.unterminated block.key)
      | some (_, behind) => (cutRest whole behind).map fun cut =>
        ⟨⟨[], block.key, block.entries⟩ :: cut.blocks, cut.tail⟩ := by
  have taken : takeBlock whole block.key (block.object ++ rest) =
      match Text.cutFirst [']'] rest with
      | none => .error (.unterminated block.key)
      | some (_, behind) => .ok (block.entries, behind) := by
    unfold takeBlock readEntries
    rw [Json.readHere_of_objectText opened.object]
    rfl
  rw [cutRest_of_marker (markerHere?_opened opened rest), cutAtMarker, isOwn_name,
    Bool.not_true, if_neg Bool.false_ne_true, String.ofList_toList, AnnotationKey.ofName?_name]
  dsimp only
  rw [taken]
  cases Text.cutFirst [']'] rest <;> rfl

end BlockText

/-- Blocks, each behind a text. -/
abbrev Pieces := List (List Char × BlockText)

namespace Pieces

/-- The texts and blocks in order, with a text behind them. -/
def written : Pieces → List Char → List Char
  | [], tail => tail
  | (before, block) :: pieces, tail => before ++ (block.source ++ written pieces tail)

/-- What the texts and blocks say. -/
def blocks (pieces : Pieces) : List Block :=
  pieces.map fun piece => ⟨piece.1, piece.2.key, piece.2.entries⟩

/-- The text without the blocks. -/
def plain (pieces : Pieces) (tail : List Char) : List Char := pieces.flatMap Prod.fst ++ tail

/-- The annotations are those of the last block of each key, in the order in which the keys first
appear. -/
structure Annotate (pieces : Pieces) (annotations : Annotations) : Prop where
  keys : annotations.map Prod.fst = (pieces.map fun piece => piece.2.key).eraseDups
  last (key : AnnotationKey) : annotations.lookup key =
    (pieces.reverse.find? fun piece => piece.2.key = key).map fun piece => piece.2.entries

end Pieces

variable {pieces : Pieces} {tail : List Char}

/-- Blocks behind texts that open none are taken, whatever follows them. -/
theorem cutRest_written (taken : ∀ piece ∈ pieces, OpensNothing piece.1 ∧ piece.2.IsTaken)
    (whole rest : List Char) :
    cutRest whole (pieces.written rest) =
      (cutRest whole rest).map fun cut => ⟨pieces.blocks ++ cut.blocks, cut.tail⟩ := by
  induction pieces with
  | nil =>
      rw [Pieces.written]
      cases cutRest whole rest <;> rfl
  | cons piece pieces ih =>
      obtain ⟨before, block⟩ := piece
      obtain ⟨⟨opens, block_taken⟩, others⟩ := List.forall_mem_cons.mp taken
      have closed : Text.cutFirst [']'] (block.closing ++ ([']'] ++ Pieces.written pieces rest)) =
          some (block.closing, Pieces.written pieces rest) := by
        rw [Text.cutFirst_append_of_notMem block_taken.closing,
          Text.cutFirst_append_self (List.cons_ne_nil _ _), Option.map_some, List.append_nil]
      rw [Pieces.written, cutRest_append opens (.inr rfl), BlockText.source, List.append_assoc,
        List.append_assoc, BlockText.cutRest_opened block_taken.toIsOpened, closed]
      dsimp only
      rw [ih others]
      cases cutRest whole rest with
      | error error => rfl
      | ok cut => simp [Except.map, Cut.prepend, Pieces.blocks]

/-- A text that opens no block is all tail. -/
theorem cutRest_of_opensNothing (opens : OpensNothing tail) (whole : List Char) :
    cutRest whole tail = .ok ⟨[], tail⟩ := by
  have alone : cutRest whole (tail ++ []) = _ := cutRest_append opens (.inl rfl)
  rw [List.append_nil] at alone
  rw [alone]
  simp [cutRest, cutFrom, nextMarker?, Except.map, Cut.prepend]

/-- Text before the first block belongs to it, or to the tail. -/
theorem Pieces.exists_prepend (first : List Char) (cut : Cut)
    (taken : ∀ piece ∈ pieces, piece.2.IsTaken) (same : cut.blocks = pieces.blocks) :
    ∃ others : Pieces, (∀ piece ∈ others, piece.2.IsTaken) ∧
      (cut.prepend first).blocks = others.blocks ∧
      first ++ pieces.written cut.tail = others.written (cut.prepend first).tail := by
  obtain ⟨blocks, tail⟩ := cut
  subst same
  cases pieces with
  | nil => exact ⟨[], taken, rfl, rfl⟩
  | cons piece pieces =>
      obtain ⟨before, block⟩ := piece
      refine ⟨(first ++ before, block) :: pieces, ?_, rfl, ?_⟩
      · exact List.forall_mem_cons.mpr (List.forall_mem_cons.mp taken)
      · simp [Pieces.written, Cut.prepend, Pieces.blocks]

theorem name_of_ofName? {name : List Char} {key : AnnotationKey}
    (known : AnnotationKey.ofName? (String.ofList name) = some key) : name = key.name.toList := by
  have same := List.find?_some known
  rw [beq_iff_eq] at same
  rw [same, String.toList_ofList]

/-- What is taken behind a marker of its own ends a block. -/
theorem exists_block {key : AnnotationKey} {entries : Entries Value}
    (starts : marker.Starts text)
    (known : AnnotationKey.ofName? (String.ofList marker.name) = some key)
    (taken : takeBlock whole key marker.after = .ok (entries, rest)) :
    ∃ block : BlockText, block.IsTaken ∧ block.key = key ∧ block.entries = entries ∧
      text = block.source ++ rest := by
  obtain ⟨object, gap, spelled, unclosed, after⟩ := exists_of_takeBlock taken
  obtain ⟨blanks, blank, source⟩ := starts.source
  refine ⟨⟨key, blanks, object, entries, gap⟩, ⟨⟨blank, spelled⟩, unclosed⟩, rfl, rfl, ?_⟩
  rw [starts.text, after, source, name_of_ofName? known]
  simp [BlockText.source, BlockText.opened]

/-- A scan that comes to an end has taken blocks and left the text around them. -/
theorem exists_of_cutRest (scanned : cutRest whole text = .ok result) :
    ∃ pieces : Pieces, (∀ piece ∈ pieces, piece.2.IsTaken) ∧ result.blocks = pieces.blocks ∧
      text = pieces.written result.tail := by
  induction length : text.length using Nat.strong_induction_on generalizing text result with
  | _ n ih =>
      subst length
      cases text with
      | nil =>
          cases scanned
          exact ⟨[], by simp, rfl, rfl⟩
      | cons c rest =>
          cases here : markerHere? (c :: rest) with
          | none =>
              rw [cutRest_of_none here] at scanned
              obtain ⟨later, rest_scanned, rfl⟩ := Json.map_eq_ok.mp scanned
              obtain ⟨pieces, taken, same, parts⟩ := ih _ (Nat.lt_succ_self _) rest_scanned rfl
              rw [← List.singleton_append, parts]
              exact Pieces.exists_prepend [c] later taken same
          | some marker =>
              have starts := starts_of_markerHere? here
              have shorter := length_after_lt starts
              rw [cutRest_of_marker here, cutAtMarker] at scanned
              split at scanned
              next foreign =>
                obtain ⟨later, rest_scanned, rfl⟩ := Json.map_eq_ok.mp scanned
                obtain ⟨pieces, taken, same, parts⟩ := ih _ shorter rest_scanned rfl
                rw [starts.before, List.nil_append, starts.text, parts]
                exact Pieces.exists_prepend marker.source later taken same
              next own =>
                split at scanned
                · cases scanned
                next key known =>
                  obtain ⟨⟨entries, behind⟩, block_taken, scanned⟩ := bind_eq_ok.mp scanned
                  obtain ⟨later, rest_scanned, rfl⟩ := Json.map_eq_ok.mp scanned
                  have behind_shorter := length_lt_of_takeBlock block_taken
                  obtain ⟨pieces, taken, same, parts⟩ :=
                    ih _ (Nat.lt_trans behind_shorter shorter) rest_scanned rfl
                  obtain ⟨block, is_taken, rfl, rfl, source⟩ :=
                    exists_block starts known block_taken
                  refine ⟨([], block) :: pieces, List.forall_mem_cons.mpr ⟨is_taken, taken⟩, ?_, ?_⟩
                  · rw [starts.before, same]
                    rfl
                  · rw [source]
                    exact congrArg (block.source ++ ·) parts

/-! ### What the blocks annotate -/

namespace Annotations

variable {annotations : Annotations} {key other : AnnotationKey} {entries : Entries Value}

theorem keys_put (annotations : Annotations) (key : AnnotationKey) (entries : Entries Value) :
    (annotations.put key entries).map Prod.fst =
      if key ∈ annotations.map Prod.fst then annotations.map Prod.fst
      else annotations.map Prod.fst ++ [key] := by
  induction annotations with
  | nil => rfl
  | cons first rest ih =>
      obtain ⟨name, old⟩ := first
      by_cases same : name = key
      · simp [put, same]
      · rw [put, if_neg same, List.map_cons, ih]
        by_cases later : key ∈ rest.map Prod.fst <;> simp [later, Ne.symm same]

theorem lookup_put (annotations : Annotations) (key other : AnnotationKey)
    (entries : Entries Value) :
    (annotations.put key entries).lookup other =
      if key = other then some entries else annotations.lookup other := by
  induction annotations with
  | nil =>
      by_cases same : key = other
      · simp [put, same]
      · simp [put, same, List.lookup_cons, beq_false_of_ne (Ne.symm same)]
  | cons first rest ih =>
      obtain ⟨name, old⟩ := first
      by_cases replaced : name = key
      · subst replaced
        by_cases same : name = other
        · simp [put, same]
        · simp [put, same, List.lookup_cons, beq_false_of_ne (Ne.symm same)]
      · rw [put, if_neg replaced, List.lookup_cons, ih]
        by_cases same : other = name
        · subst same
          simp [Ne.symm replaced]
        · simp [List.lookup_cons, beq_false_of_ne same]

end Annotations

namespace Cut

/-- What the blocks annotate, in the order in which the keys first appear. -/
theorem keys_annotations (blocks : List Block) (tail : List Char) :
    (annotations ⟨blocks, tail⟩).map Prod.fst = (blocks.map Block.key).eraseDups := by
  unfold annotations
  induction blocks using List.reverseRecOn with
  | nil => rfl
  | append_singleton blocks block ih =>
      rw [List.foldl_concat, Annotations.keys_put, ih, List.map_append, List.eraseDups_append,
        List.map_singleton]
      generalize blocks.map Block.key = keys
      by_cases known : block.key ∈ keys
      · rw [if_pos (List.mem_eraseDups.mpr known)]
        simp [List.removeAll, known]
      · rw [if_neg fun member => known (List.mem_eraseDups.mp member)]
        simp [List.removeAll, known, List.eraseDups_cons]

/-- The last block of a key says what it annotates. -/
theorem lookup_annotations (blocks : List Block) (tail : List Char) (key : AnnotationKey) :
    (annotations ⟨blocks, tail⟩).lookup key =
      (blocks.reverse.find? fun block => block.key = key).map Block.entries := by
  unfold annotations
  induction blocks using List.reverseRecOn with
  | nil => rfl
  | append_singleton blocks block ih =>
      rw [List.foldl_concat, Annotations.lookup_put, ih, List.reverse_concat, List.find?_cons]
      by_cases same : block.key = key <;> simp [same]

end Cut

theorem Pieces.annotate_blocks (pieces : Pieces) (tail : List Char) :
    pieces.Annotate (Cut.annotations ⟨pieces.blocks, tail⟩) where
  keys := by
    rw [Cut.keys_annotations, blocks, List.map_map]
    rfl
  last key := by
    rw [Cut.lookup_annotations, blocks, ← List.map_reverse, List.find?_map, Option.map_map]
    rfl

theorem Pieces.text_blocks (pieces : Pieces) (tail : List Char) :
    Cut.text ⟨pieces.blocks, tail⟩ = pieces.plain tail := by
  rw [Cut.text, blocks, plain, List.flatMap_map]

/-! ### Comments -/

/-- Blocks are taken, and nothing else is, where the texts around them open none. -/
theorem cut_written (taken : ∀ piece ∈ pieces, OpensNothing piece.1 ∧ piece.2.IsTaken)
    (opens : OpensNothing tail) : cut (pieces.written tail) = .ok ⟨pieces.blocks, tail⟩ := by
  have scanned := cutRest_written taken (pieces.written tail) tail
  rw [cutRest_of_opensNothing opens] at scanned
  change cutRest (pieces.written tail) (pieces.written tail) = _
  rw [scanned]
  simp [Except.map]

/-- Blocks in their proper form are read back exactly. Between them can stand any text in which no
block starts, markers of other tools and lone brackets included. -/
theorem annotations_written (pieces : Pieces) (tail : List Char)
    (formed : ∀ piece ∈ pieces, OpensNothing piece.1 ∧ piece.2.IsFormed)
    (opens : OpensNothing tail) :
    (∃ annotations, annotationsOf (String.ofList (pieces.written tail)) = .ok annotations ∧
      pieces.Annotate annotations) ∧
    withoutBlocks (String.ofList (pieces.written tail)) =
      .ok (String.ofList (pieces.plain tail)) := by
  have taken : ∀ piece ∈ pieces, OpensNothing piece.1 ∧ piece.2.IsTaken := by
    intro piece member
    exact ⟨(formed piece member).1, (formed piece member).2.isTaken⟩
  rw [annotationsOf, withoutBlocks, String.toList_ofList, cut_written taken opens]
  refine ⟨⟨_, rfl, pieces.annotate_blocks tail⟩, ?_⟩
  rw [Except.map, pieces.text_blocks]

/-- A block with a title, and what stands between its object and its closing bracket. -/
def shelfBlock (closing : List Char) : BlockText :=
  ⟨.schema, [' '], "\x7b\"title\": \"Shelf\"\x7d".toList, [(.string "title", .string "Shelf")],
    closing⟩

theorem shelfBlock_isOpened (closing : List Char) : (shelfBlock closing).IsOpened where
  opening := by
    apply List.all_eq_true.mp
    rfl
  object := by
    apply Json.objectText_iff.mpr
    unfold shelfBlock
    dsimp only
    rfl

/-- Two blocks of one key, the first of which holds what could be taken for another. -/
def shelfPieces : Pieces := [
  ("Books [1] of [#next-free-field: 3].\n".toList,
    ⟨.schema, [], "\x7b\"title\": \"[#openapi-schema: \x7b]\x7d\"\x7d".toList,
      [(.string "title", .string "[#openapi-schema: \x7b]\x7d")], ['\n']⟩),
  (" ]".toList, shelfBlock [' '])]

theorem shelfPieces_isFormed : ∀ piece ∈ shelfPieces, OpensNothing piece.1 ∧ piece.2.IsFormed := by
  rw [shelfPieces, List.forall_mem_cons, List.forall_mem_singleton]
  constructor
  · refine ⟨?_, ⟨List.all_eq_true.mp rfl, ?_⟩, List.all_eq_true.mp rfl⟩
    · unfold OpensNothing
      decide
    · apply Json.objectText_iff.mpr
      dsimp only
      rfl
  · refine ⟨?_, shelfBlock_isOpened _, List.all_eq_true.mp rfl⟩
    unfold OpensNothing
    decide

theorem opensNothing_dot : OpensNothing ['.'] := by
  unfold OpensNothing
  decide

theorem annotations_shelfPieces :
    (∃ annotations, annotationsOf (String.ofList (shelfPieces.written ['.'])) = .ok annotations ∧
      shelfPieces.Annotate annotations) ∧
    withoutBlocks (String.ofList (shelfPieces.written ['.'])) =
      .ok (String.ofList (shelfPieces.plain ['.'])) := by
  exact annotations_written shelfPieces ['.'] shelfPieces_isFormed opensNothing_dot

/-- What is removed from a comment is a marker, blanks, a JSON object and whatever stands up to the
next closing bracket, where that need not be blank. A block without a closing bracket anywhere
behind it is an error. -/
theorem removed_spans (text : String) :
    (∀ annotations, annotationsOf text = .ok annotations →
      ∃ (pieces : Pieces) (tail : List Char), (∀ piece ∈ pieces, piece.2.IsTaken) ∧
        text.toList = pieces.written tail ∧ pieces.Annotate annotations ∧
        withoutBlocks text = .ok (String.ofList (pieces.plain tail))) ∧
    ∀ (pieces : Pieces) (before : List Char) (block : BlockText) (rest : List Char),
      (∀ piece ∈ pieces, OpensNothing piece.1 ∧ piece.2.IsTaken) → OpensNothing before →
      block.IsOpened → ']' ∉ rest →
      text.toList = pieces.written (before ++ (block.opened ++ rest)) →
      annotationsOf text = .error (.unterminated block.key) := by
  constructor
  · intro annotations read
    obtain ⟨result, scanned, rfl⟩ := Json.map_eq_ok.mp read
    obtain ⟨pieces, taken, same, parts⟩ := exists_of_cutRest scanned
    obtain ⟨blocks, tail⟩ := result
    subst same
    refine ⟨pieces, tail, taken, parts, pieces.annotate_blocks tail, ?_⟩
    rw [withoutBlocks, show cut text.toList = _ from scanned, Except.map, pieces.text_blocks]
  · intro pieces before block rest taken opens opened unclosed parts
    have failed : cutRest text.toList (block.opened ++ rest) =
        .error (.unterminated block.key) := by
      rw [BlockText.cutRest_opened opened, Text.cutFirst_eq_none unclosed]
    have scanned := cutRest_written taken text.toList (before ++ (block.opened ++ rest))
    rw [cutRest_append opens (.inr rfl), failed, ← parts] at scanned
    rw [annotationsOf, show cut text.toList = _ from scanned]
    rfl

theorem removed_spans_shelf :
    (∃ (pieces : Pieces) (tail : List Char), (∀ piece ∈ pieces, piece.2.IsTaken) ∧
      (String.ofList (shelfPieces.written ['.'])).toList = pieces.written tail) ∧
    annotationsOf (String.ofList ("A shelf. ".toList ++ ((shelfBlock []).opened ++ ['.']))) =
      .error (.unterminated .schema) := by
  constructor
  · have taken : ∀ piece ∈ shelfPieces, OpensNothing piece.1 ∧ piece.2.IsTaken := by
      intro piece member
      have formed := shelfPieces_isFormed piece member
      exact ⟨formed.1, formed.2.isTaken⟩
    have read : annotationsOf (String.ofList (shelfPieces.written ['.'])) =
        .ok (Cut.annotations ⟨shelfPieces.blocks, ['.']⟩) := by
      rw [annotationsOf, String.toList_ofList, cut_written taken opensNothing_dot]
      rfl
    obtain ⟨pieces, tail, is_taken, parts, -⟩ := (removed_spans _).1 _ read
    exact ⟨pieces, tail, is_taken, parts⟩
  · refine (removed_spans _).2 [] "A shelf. ".toList (shelfBlock []) ['.'] ?_ ?_
      (shelfBlock_isOpened []) (by decide) ?_
    · simp
    · unfold OpensNothing
      decide
    · rw [String.toList_ofList]
      rfl

theorem cut_shelfBlock {closing tail : List Char} (unclosed : ']' ∉ closing)
    (opens : OpensNothing tail) :
    cut ((shelfBlock closing).source ++ tail) =
      .ok ⟨[⟨[], .schema, (shelfBlock []).entries⟩], tail⟩ := by
  have taken : ∀ piece ∈ ([([], shelfBlock closing)] : Pieces),
      OpensNothing piece.1 ∧ piece.2.IsTaken := by
    rw [List.forall_mem_singleton]
    refine ⟨?_, shelfBlock_isOpened closing, unclosed⟩
    change OpensNothing []
    unfold OpensNothing
    decide
  exact cut_written taken opens

/-- A comment in which a sentence stands behind the object of a block. -/
def sentenceComment : String :=
  "[#openapi-schema: \x7b\"title\": \"Shelf\"\x7d A shelf of books [see the catalog], sorted."

/-- A comment in which a block stands behind the object of a block. -/
def blockComment : String :=
  "[#openapi-schema: \x7b\"title\": \"Shelf\"\x7d\n" ++
    "[#openapi-schema: \x7b\"deprecated\": true\x7d]\nA shelf."

/-- What stands behind an object that is not closed is taken up to the next closing bracket. -/
theorem unclosed_takes_text :
    withoutBlocks sentenceComment = .ok ", sorted." ∧
    withoutBlocks blockComment = .ok "\nA shelf." ∧
    ¬∀ (block : BlockText) (rest : List Char), block.IsOpened →
      (rest.dropWhile Text.isBlank).head? ≠ some ']' →
      ∃ error, annotationsOf (String.ofList (block.opened ++ rest)) = .error error := by
  let sentence := " A shelf of books [see the catalog".toList
  let tail := ", sorted.".toList
  have taken : cut ((shelfBlock sentence).source ++ tail) = _ :=
    cut_shelfBlock (by decide) (by unfold OpensNothing; decide)
  refine ⟨?_, ?_, ?_⟩
  · have parts : sentenceComment.toList = (shelfBlock sentence).source ++ tail := by decide
    rw [withoutBlocks, parts, taken]
    exact congrArg Except.ok (String.ofList_toList (s := ", sorted."))
  · let later := "\n[#openapi-schema: \x7b\"deprecated\": true\x7d".toList
    let behind := "\nA shelf.".toList
    have parts : blockComment.toList = (shelfBlock later).source ++ behind := by decide
    have taken : cut ((shelfBlock later).source ++ behind) = _ :=
      cut_shelfBlock (by decide) (by unfold OpensNothing; decide)
    rw [withoutBlocks, parts, taken]
    exact congrArg Except.ok (String.ofList_toList (s := "\nA shelf."))
  · intro raised
    obtain ⟨error, failed⟩ := raised (shelfBlock []) (sentence ++ ']' :: tail)
      (shelfBlock_isOpened []) (by decide)
    have parts : (shelfBlock []).opened ++ (sentence ++ ']' :: tail) =
        (shelfBlock sentence).source ++ tail := by decide
    rw [annotationsOf, String.toList_ofList, parts, taken] at failed
    cases failed

end ServiceDoc.Comment
