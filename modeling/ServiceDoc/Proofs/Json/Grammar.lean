import ServiceDoc.Proofs.Json.Token

/-!
# The grammar of JSON

Which text spells which value, apart from the reader. The reader takes a text of the grammar off the
front of any other text and gives the value that it spells (`reads_of_spells`), and it takes
nothing else (`spelled_of_read`). An object ends by itself, so one is read whatever follows it
(`readHere_of_objectText`).
-/

namespace ServiceDoc.Json

variable {text tail : List Char} {depth fuel : Nat} {c last : Cursor}

/-! ### Blanks between tokens -/

/-- A blank between the tokens of a text. -/
def isGap (ch : Char) : Bool := ch = ' ' || ch = '\t' || ch = '\n' || ch = '\r'

/-- Blanks between two tokens, or nothing. -/
def IsGap (text : List Char) : Prop := ∀ ch ∈ text, isGap ch = true

/-- A token starts here, or the text ends. -/
def NoGap (text : List Char) : Prop := ∀ ch, text.head? = some ch → isGap ch = false

theorem noGap_cons {ch : Char} (token : isGap ch = false) (text : List Char) :
    NoGap (ch :: text) := by
  intro first same
  cases same
  exact token

theorem skipBlanks_append {gap : List Char} (blank : IsGap gap) (token : NoGap tail)
    (position : Nat) :
    Cursor.skipBlanks ⟨position, gap ++ tail⟩ = ⟨position + gap.length, tail⟩ := by
  have taken : (gap ++ tail).takeWhile isGap = gap := Text.takeWhile_append_of_stop blank token
  change Cursor.skip ⟨position, gap ++ tail⟩ ((gap ++ tail).takeWhile isGap).length = _
  rw [taken, Cursor.skip_append]

theorem exists_gap (c : Cursor) : ∃ gap, IsGap gap ∧ c.rest = gap ++ c.skipBlanks.rest := by
  refine ⟨c.rest.takeWhile isGap, ?_, ?_⟩
  · intro ch member
    exact List.mem_takeWhile_imp member
  · change _ = _ ++ c.rest.drop (c.rest.takeWhile isGap).length
    rw [List.prefix_iff_eq_append.mp (List.takeWhile_prefix _)]

/-! ### Values -/

/-- What a stretch of text can spell. -/
inductive Piece where
  | value (value : Value)
  /-- A name and a value, up to what ends a member. -/
  | member (key : Scalar) (value : Value)
  /-- The members of an object, with the closing brace. -/
  | members (members : List (Scalar × Value))
  /-- The items of an array, with the closing bracket. -/
  | items (items : List Value)

/-- A text spells a piece with no more containers inside of each other than a depth. -/
inductive Spells : Nat → List Char → Piece → Prop where
  | string {depth : Nat} {text : List Char} {codes : List Nat} (rest : StringRest text codes) :
      Spells depth ('"' :: text) (.value (.scalar (.ofCodes codes)))
  | word {depth : Nat} {word : String} {scalar : Scalar} (known : (word, scalar) ∈ words) :
      Spells depth word.toList (.value (.scalar scalar))
  | number {depth : Nat} {text : List Char} {scalar : Scalar} (spelled : Number text scalar) :
      Spells depth text (.value (.scalar scalar))
  | emptyObject {depth : Nat} {gap : List Char} (blank : IsGap gap) :
      Spells (depth + 1) ('\x7b' :: (gap ++ ['\x7d'])) (.value (.map []))
  | object {depth : Nat} {gap text : List Char} {members : List (Scalar × Value)}
      (blank : IsGap gap) (inside : Spells depth text (.members members)) :
      Spells (depth + 1) ('\x7b' :: (gap ++ text)) (.value (.map (Entries.putAll [] members)))
  | emptyArray {depth : Nat} {gap : List Char} (blank : IsGap gap) :
      Spells (depth + 1) ('[' :: (gap ++ [']'])) (.value (.list []))
  | array {depth : Nat} {gap text : List Char} {items : List Value} (blank : IsGap gap)
      (inside : Spells depth text (.items items)) :
      Spells (depth + 1) ('[' :: (gap ++ text)) (.value (.list items))
  | member {depth : Nat} {name before after text behind : List Char} {codes : List Nat}
      {value : Value} (named : StringRest name codes) (blank_before : IsGap before)
      (blank_after : IsGap after) (spelled : Spells depth text (.value value))
      (blank_behind : IsGap behind) :
      Spells depth ('"' :: (name ++ (before ++ ':' :: (after ++ (text ++ behind)))))
        (.member (.ofCodes codes) value)
  | lastMember {depth : Nat} {text : List Char} {key : Scalar} {value : Value}
      (only : Spells depth text (.member key value)) :
      Spells depth (text ++ ['\x7d']) (.members [(key, value)])
  | nextMember {depth : Nat} {text gap rest : List Char} {key : Scalar} {value : Value}
      {members : List (Scalar × Value)} (first : Spells depth text (.member key value))
      (blank : IsGap gap) (others : Spells depth rest (.members members)) :
      Spells depth (text ++ ',' :: (gap ++ rest)) (.members ((key, value) :: members))
  | lastItem {depth : Nat} {text behind : List Char} {item : Value}
      (only : Spells depth text (.value item)) (blank_behind : IsGap behind) :
      Spells depth (text ++ (behind ++ [']'])) (.items [item])
  | nextItem {depth : Nat} {text behind gap rest : List Char} {item : Value} {items : List Value}
      (first : Spells depth text (.value item)) (blank_behind : IsGap behind) (blank : IsGap gap)
      (others : Spells depth rest (.items items)) :
      Spells depth (text ++ (behind ++ ',' :: (gap ++ rest))) (.items (item :: items))

/-- The text of an object with its entries, no deeper than the reader goes. -/
def ObjectText (text : List Char) (entries : Entries Value) : Prop :=
  Spells maxDepth text (.value (.map entries))

/-! ### What is spelled is read -/

/-- A piece starts with a token, which closes nothing. -/
theorem Spells.exists_head {piece : Piece} (spelled : Spells depth text piece) :
    ∃ first others, text = first :: others ∧ isGap first = false ∧ first ≠ ']' ∧
      first ≠ '\x7d' := by
  induction spelled with
  | string | emptyObject | object | emptyArray | array | member =>
      exact ⟨_, _, rfl, by decide, by decide, by decide⟩
  | word known =>
      simp only [words, List.mem_cons, Prod.mk.injEq, List.not_mem_nil, or_false] at known
      rcases known with ⟨rfl, -⟩ | ⟨rfl, -⟩ | ⟨rfl, -⟩ | ⟨rfl, -⟩ | ⟨rfl, -⟩ | ⟨rfl, -⟩ <;>
        exact ⟨_, _, rfl, by decide, by decide, by decide⟩
  | number spelled =>
      obtain ⟨negative, first, others, rfl, is_digit⟩ := spelled.exists_head
      cases negative with
      | true => exact ⟨'-', first :: others, rfl, by decide, by decide, by decide⟩
      | false =>
          refine ⟨first, others, rfl, ?_, ?_, ?_⟩
          · simp only [isGap, Bool.or_eq_false_iff, decide_eq_false_iff_not]
            refine ⟨⟨⟨?_, ?_⟩, ?_⟩, ?_⟩ <;> (rintro rfl; simp [Text.isDigit] at is_digit)
          · rintro rfl
            simp [Text.isDigit] at is_digit
          · rintro rfl
            simp [Text.isDigit] at is_digit
  | lastMember _ ih | nextMember _ _ _ ih | lastItem _ _ ih | nextItem _ _ _ _ ih =>
      obtain ⟨first, others, rfl, token⟩ := ih
      exact ⟨first, _, rfl, token⟩

theorem Spells.noGap {piece : Piece} (spelled : Spells depth text piece) (tail : List Char) :
    NoGap (text ++ tail) := by
  obtain ⟨first, others, rfl, token, -⟩ := spelled.exists_head
  exact noGap_cons token _

/-- The reader takes a text off the front of any other and gives the piece that it spells. A scalar
must stand where a number could end. -/
def Reads (depth : Nat) (text : List Char) : Piece → Prop
  | .value value => ∀ fuel position tail, text.length ≤ fuel →
      (∀ scalar, value = .scalar scalar → EndsNumber tail) →
      readValue fuel depth ⟨position, text ++ tail⟩ = .ok (value, ⟨position + text.length, tail⟩)
  | .member key value => ∀ fuel before position closing tail, text.length ≤ fuel + 1 →
      closing = ',' ∨ closing = '\x7d' →
      readMembers (fuel + 1) depth before ⟨position, text ++ closing :: tail⟩ =
        if closing = '\x7d' then .ok (before.put key value, ⟨position + text.length + 1, tail⟩)
        else readMembers fuel depth (before.put key value)
          (Cursor.skipBlanks ⟨position + text.length + 1, tail⟩)
  | .members members => ∀ fuel before position tail, text.length ≤ fuel →
      readMembers fuel depth before ⟨position, text ++ tail⟩ =
        .ok (before.putAll members, ⟨position + text.length, tail⟩)
  | .items items => ∀ fuel position tail, text.length ≤ fuel →
      readItems fuel depth ⟨position, text ++ tail⟩ = .ok (items, ⟨position + text.length, tail⟩)

theorem readString_of_spelled {codes : List Nat} (spelled : StringRest text codes)
    (enough : text.length ≤ fuel) (position : Nat) (tail : List Char) :
    readString fuel ⟨position, text ++ tail⟩ =
      .ok (.ofCodes codes, ⟨position + text.length, tail⟩) := by
  unfold readString
  rw [readText_of_spelled spelled _ tail enough]
  rfl

/-- A text that opens neither a string nor a container is a word or a number. -/
theorem readValue_plain (fuel depth : Nat) (no_string : c.rest.head? ≠ some '"')
    (no_object : c.rest.head? ≠ some '\x7b') (no_array : c.rest.head? ≠ some '[') :
    readValue (fuel + 1) depth c =
      match word? c.rest with
      | some (word, scalar) => .ok (.scalar scalar, c.skip word.length)
      | none => (readNumber c).map fun (number, last) => (.scalar number, last) := by
  rw [readValue]
  split
  next same => simp [same] at no_string
  next same => simp [same] at no_object
  next same => simp [same] at no_array
  next => rfl

theorem readValue_object (fuel depth position : Nat) (text : List Char) :
    readValue (fuel + 1) (depth + 1) ⟨position, '\x7b' :: text⟩ =
      let inside := Cursor.skipBlanks ⟨position + 1, text⟩
      if inside.rest.head? = some '\x7d' then .ok (.map [], inside.skip 1)
      else (readMembers fuel depth [] inside).map fun (entries, last) => (.map entries, last) := by
  rw [readValue, if_neg (Nat.succ_ne_zero depth)]
  rfl

theorem readValue_array (fuel depth position : Nat) (text : List Char) :
    readValue (fuel + 1) (depth + 1) ⟨position, '[' :: text⟩ =
      let inside := Cursor.skipBlanks ⟨position + 1, text⟩
      if inside.rest.head? = some ']' then .ok (.list [], inside.skip 1)
      else (readItems fuel depth inside).map fun (items, last) => (.list items, last) := by
  rw [readValue, if_neg (Nat.succ_ne_zero depth)]
  rfl

theorem exists_fuel {first : Char} {others : List Char}
    (enough : (first :: others).length ≤ fuel) :
    ∃ rest, fuel = rest + 1 ∧ others.length ≤ rest := by
  obtain ⟨rest, rfl⟩ := Nat.exists_eq_add_of_le' (Nat.le_of_add_left_le enough)
  exact ⟨rest, rfl, Nat.le_of_add_le_add_right enough⟩

theorem reads_string {codes : List Nat} (spelled : StringRest text codes) :
    Reads depth ('"' :: text) (.value (.scalar (.ofCodes codes))) := by
  intro fuel position tail enough _
  obtain ⟨fuel, rfl, enough_rest⟩ := exists_fuel enough
  have string_read := readString_of_spelled spelled enough_rest (position + 1) tail
  rw [List.cons_append, readValue]
  simp only [Cursor.skip, List.drop_succ_cons, List.drop_zero, string_read]
  rw [List.length_cons, Nat.add_assoc, Nat.add_comm 1]
  rfl

theorem reads_word {word : String} {scalar : Scalar} (known : (word, scalar) ∈ words) :
    Reads depth word.toList (.value (.scalar scalar)) := by
  intro fuel position tail enough _
  have found := word?_append known tail
  have skipped := Cursor.skip_append position word.toList tail
  have head : word.toList ≠ [] ∧ ∀ opening ∈ ['"', '\x7b', '['],
      (word.toList ++ tail).head? ≠ some opening := by
    simp only [words, List.mem_cons, Prod.mk.injEq, List.not_mem_nil, or_false] at known
    rcases known with ⟨rfl, -⟩ | ⟨rfl, -⟩ | ⟨rfl, -⟩ | ⟨rfl, -⟩ | ⟨rfl, -⟩ | ⟨rfl, -⟩ <;> simp
  obtain ⟨fuel, rfl⟩ := Nat.exists_eq_add_of_le'
    (Nat.le_trans (List.length_pos_iff.mpr head.1) enough)
  rw [readValue_plain fuel depth (head.2 _ (by simp)) (head.2 _ (by simp)) (head.2 _ (by simp)),
    found, ← skipped, String.length_toList]

theorem Number.head_ne {scalar : Scalar} (spelled : Number text scalar) {opening : Char}
    (no_sign : opening ≠ '-') (no_digit : Text.isDigit opening = false) (tail : List Char) :
    (text ++ tail).head? ≠ some opening := by
  obtain ⟨negative, first, others, rfl, is_digit⟩ := spelled.exists_head
  cases negative with
  | true => simp [signText, Ne.symm no_sign]
  | false =>
      intro same
      cases same
      simp [no_digit] at is_digit

theorem reads_number {scalar : Scalar} (spelled : Number text scalar) :
    Reads depth text (.value (.scalar scalar)) := by
  intro fuel position tail enough ends
  have read := readNumber_of_spelled spelled (ends scalar rfl) position
  have no_word := word?_number spelled tail
  have spells : Spells depth text (.value (.scalar scalar)) := .number spelled
  obtain ⟨first, others, rfl, -⟩ := spells.exists_head
  obtain ⟨fuel, rfl, -⟩ := exists_fuel enough
  rw [readValue_plain fuel depth (spelled.head_ne (by decide) rfl tail)
    (spelled.head_ne (by decide) rfl tail) (spelled.head_ne (by decide) rfl tail), no_word, read]
  rfl

theorem reads_emptyObject {gap : List Char} (blank : IsGap gap) :
    Reads (depth + 1) ('\x7b' :: (gap ++ ['\x7d'])) (.value (.map [])) := by
  intro fuel position tail enough _
  obtain ⟨fuel, rfl, -⟩ := exists_fuel enough
  rw [List.cons_append, readValue_object, List.append_assoc, List.singleton_append,
    skipBlanks_append blank (noGap_cons (by decide) _)]
  simp [Cursor.skip, Nat.add_assoc, Nat.add_comm 1]

theorem reads_object {gap : List Char} {members : List (Scalar × Value)} (blank : IsGap gap)
    (spelled : Spells depth text (.members members))
    (inside : Reads depth text (.members members)) :
    Reads (depth + 1) ('\x7b' :: (gap ++ text)) (.value (.map (Entries.putAll [] members))) := by
  intro fuel position tail enough _
  obtain ⟨fuel, rfl, enough_rest⟩ := exists_fuel enough
  rw [List.length_append] at enough_rest
  have members_read := inside fuel [] (position + 1 + gap.length) tail (by omega)
  obtain ⟨first, others, rfl, -, -, not_closed⟩ := spelled.exists_head
  rw [List.cons_append, readValue_object, List.append_assoc,
    skipBlanks_append blank (spelled.noGap tail)]
  simp only [members_read]
  rw [if_neg (by simpa using not_closed)]
  simp [Except.map, Nat.add_assoc, Nat.add_comm 1]

theorem reads_emptyArray {gap : List Char} (blank : IsGap gap) :
    Reads (depth + 1) ('[' :: (gap ++ [']'])) (.value (.list [])) := by
  intro fuel position tail enough _
  obtain ⟨fuel, rfl, -⟩ := exists_fuel enough
  rw [List.cons_append, readValue_array, List.append_assoc, List.singleton_append,
    skipBlanks_append blank (noGap_cons (by decide) _)]
  simp [Cursor.skip, Nat.add_assoc, Nat.add_comm 1]

theorem reads_array {gap : List Char} {items : List Value} (blank : IsGap gap)
    (spelled : Spells depth text (.items items)) (inside : Reads depth text (.items items)) :
    Reads (depth + 1) ('[' :: (gap ++ text)) (.value (.list items)) := by
  intro fuel position tail enough _
  obtain ⟨fuel, rfl, enough_rest⟩ := exists_fuel enough
  rw [List.length_append] at enough_rest
  have items_read := inside fuel (position + 1 + gap.length) tail (by omega)
  obtain ⟨first, others, rfl, -, not_closed, -⟩ := spelled.exists_head
  rw [List.cons_append, readValue_array, List.append_assoc,
    skipBlanks_append blank (spelled.noGap tail)]
  simp only [items_read]
  rw [if_neg (by simpa using not_closed)]
  simp [Except.map, Nat.add_assoc, Nat.add_comm 1]

/-- Behind a value stands nothing that could belong to a number. -/
theorem endsNumber_append {gap : List Char} {closing : Char} (blank : IsGap gap)
    (closes : closing = ',' ∨ closing = ']' ∨ closing = '\x7d') (tail : List Char) :
    EndsNumber (gap ++ closing :: tail) := by
  intro ch first
  have member : isGap ch = true ∨ ch = closing := by
    cases gap with
    | nil => exact .inr (Option.some.inj first).symm
    | cons head others =>
        cases first
        exact .inl (blank _ List.mem_cons_self)
  rcases member with gap_char | rfl
  · simp only [isGap, Bool.or_eq_true, decide_eq_true_eq] at gap_char
    rcases gap_char with ((rfl | rfl) | rfl) | rfl <;> simp [Text.isDigit]
  · rcases closes with rfl | rfl | rfl <;> simp [Text.isDigit]

theorem reads_member {name before after behind : List Char} {codes : List Nat} {value : Value}
    (named : StringRest name codes) (blank_before : IsGap before) (blank_after : IsGap after)
    (spelled : Spells depth text (.value value)) (inside : Reads depth text (.value value))
    (blank_behind : IsGap behind) :
    Reads depth ('"' :: (name ++ (before ++ ':' :: (after ++ (text ++ behind)))))
      (.member (.ofCodes codes) value) := by
  intro fuel entries position closing tail enough closes
  simp only [List.length_cons, List.length_append] at enough
  have closing_token : NoGap (closing :: tail) := by
    refine noGap_cons ?_ tail
    rcases closes with rfl | rfl <;> decide
  have name_read := readString_of_spelled named (by omega : name.length ≤ fuel) (position + 1)
    (before ++ ':' :: (after ++ (text ++ (behind ++ closing :: tail))))
  have colon := skipBlanks_append blank_before
    (noGap_cons (by decide : isGap ':' = false) (after ++ (text ++ (behind ++ closing :: tail))))
    (position + 1 + name.length)
  have value_start := skipBlanks_append blank_after (spelled.noGap (behind ++ closing :: tail))
    (position + 1 + name.length + before.length + 1)
  have value_read := inside fuel
    (position + 1 + name.length + before.length + 1 + after.length) (behind ++ closing :: tail)
    (by omega) fun _ _ => endsNumber_append blank_behind (by tauto) tail
  have next := skipBlanks_append blank_behind closing_token
    (position + 1 + name.length + before.length + 1 + after.length + text.length)
  have length_eq : position + ('"' :: (name ++ (before ++ ':' :: (after ++ (text ++ behind))))).length =
      position + 1 + name.length + before.length + 1 + after.length + text.length +
        behind.length := by
    simp only [List.length_cons, List.length_append]
    omega
  rw [length_eq, readMembers]
  simp only [List.cons_append, List.append_assoc, List.head?_cons, ne_eq, not_true_eq_false,
    if_false, Cursor.skip, List.drop_succ_cons, List.drop_zero, name_read, colon, value_start,
    value_read, next, bind, Except.bind]
  rcases closes with rfl | rfl <;> rfl

theorem reads_lastMember {key : Scalar} {value : Value}
    (only : Reads depth text (.member key value)) :
    Reads depth (text ++ ['\x7d']) (.members [(key, value)]) := by
  intro fuel entries position tail enough
  rw [List.length_append, List.length_singleton] at enough
  obtain ⟨fuel, rfl⟩ := Nat.exists_eq_add_of_le' (Nat.le_of_add_left_le enough)
  rw [List.append_assoc, List.singleton_append,
    only fuel entries position '\x7d' tail (by omega) (.inr rfl), List.length_append]
  rfl

theorem reads_nextMember {gap rest : List Char} {key : Scalar} {value : Value}
    {members : List (Scalar × Value)} (first : Reads depth text (.member key value))
    (nonempty : text ≠ []) (blank : IsGap gap) (spelled : Spells depth rest (.members members))
    (others : Reads depth rest (.members members)) :
    Reads depth (text ++ ',' :: (gap ++ rest)) (.members ((key, value) :: members)) := by
  intro fuel entries position tail enough
  have some_text := List.length_pos_iff.mpr nonempty
  simp only [List.length_append, List.length_cons] at enough
  obtain ⟨fuel, rfl⟩ := Nat.exists_eq_add_of_le' (Nat.le_trans some_text
    (Nat.le_of_add_right_le enough))
  have others_read := others fuel (entries.put key value)
    (position + text.length + 1 + gap.length) tail (by omega)
  rw [List.append_assoc, List.cons_append, List.append_assoc,
    first fuel entries position ',' _ (by omega) (.inl rfl), if_neg (by decide),
    skipBlanks_append blank (spelled.noGap tail), others_read]
  simp [Entries.putAll, Nat.add_assoc, Nat.add_comm 1]

theorem readItems_item {position : Nat} {item : Value} {closing : Char}
    (item_read : readValue fuel depth c = .ok (item, last))
    (next : last.skipBlanks = ⟨position, closing :: tail⟩)
    (closes : closing = ',' ∨ closing = ']') :
    readItems (fuel + 1) depth c =
      if closing = ']' then .ok ([item], ⟨position + 1, tail⟩)
      else (readItems fuel depth (Cursor.skipBlanks ⟨position + 1, tail⟩)).map
        fun (items, last) => (item :: items, last) := by
  rw [readItems, item_read]
  simp only [bind, Except.bind, next, List.head?_cons, Cursor.skip]
  rcases closes with rfl | rfl <;> rfl

theorem reads_lastItem {behind : List Char} {item : Value}
    (only : Reads depth text (.value item)) (blank_behind : IsGap behind) :
    Reads depth (text ++ (behind ++ [']'])) (.items [item]) := by
  intro fuel position tail enough
  simp only [List.length_append, List.length_singleton] at enough
  obtain ⟨fuel, rfl⟩ := Nat.exists_eq_add_of_le' (Nat.le_of_add_left_le (by omega : _ + 1 ≤ fuel))
  have item_read := only fuel position (behind ++ ']' :: tail) (by omega) fun _ _ =>
    endsNumber_append blank_behind (.inr (.inl rfl)) tail
  have next := skipBlanks_append blank_behind
    (noGap_cons (by decide : isGap ']' = false) tail) (position + text.length)
  rw [List.append_assoc, List.append_assoc, List.singleton_append,
    readItems_item item_read next (.inr rfl)]
  simp [Nat.add_assoc]

theorem reads_nextItem {behind gap rest : List Char} {item : Value} {items : List Value}
    (first : Reads depth text (.value item)) (blank_behind : IsGap behind) (blank : IsGap gap)
    (spelled : Spells depth rest (.items items)) (others : Reads depth rest (.items items)) :
    Reads depth (text ++ (behind ++ ',' :: (gap ++ rest))) (.items (item :: items)) := by
  intro fuel position tail enough
  simp only [List.length_append, List.length_cons] at enough
  obtain ⟨fuel, rfl⟩ := Nat.exists_eq_add_of_le' (Nat.le_of_add_left_le (by omega : _ + 1 ≤ fuel))
  have item_read := first fuel position (behind ++ ',' :: (gap ++ (rest ++ tail))) (by omega)
    fun _ _ => endsNumber_append blank_behind (.inl rfl) (gap ++ (rest ++ tail))
  have next := skipBlanks_append blank_behind
    (noGap_cons (by decide : isGap ',' = false) (gap ++ (rest ++ tail)))
    (position + text.length)
  have others_read := others fuel
    (position + text.length + behind.length + 1 + gap.length) tail (by omega)
  rw [List.append_assoc, List.append_assoc, List.cons_append, List.append_assoc,
    readItems_item item_read next (.inl rfl), if_neg (by decide),
    skipBlanks_append blank (spelled.noGap tail), others_read]
  simp [Except.map, Nat.add_assoc, Nat.add_comm 1]

/-- What spells a piece is read as that piece. -/
theorem reads_of_spells {piece : Piece} (spelled : Spells depth text piece) :
    Reads depth text piece := by
  induction spelled with
  | string rest => exact reads_string rest
  | word known => exact reads_word known
  | number spelled => exact reads_number spelled
  | emptyObject blank => exact reads_emptyObject blank
  | object blank inside ih => exact reads_object blank inside ih
  | emptyArray blank => exact reads_emptyArray blank
  | array blank inside ih => exact reads_array blank inside ih
  | member named blank_before blank_after spelled blank_behind ih =>
      exact reads_member named blank_before blank_after spelled ih blank_behind
  | lastMember only ih => exact reads_lastMember ih
  | nextMember first blank others ih ih_others =>
      obtain ⟨_, _, rfl, -⟩ := first.exists_head
      exact reads_nextMember ih (List.cons_ne_nil _ _) blank others ih_others
  | lastItem only blank_behind ih => exact reads_lastItem ih blank_behind
  | nextItem first blank_behind blank others ih ih_others =>
      exact reads_nextItem ih blank_behind blank others ih_others

/-- An object is read whatever follows it. -/
theorem readHere_of_objectText {entries : Entries Value} (spelled : ObjectText text entries)
    (position : Nat) (tail : List Char) :
    readHere ⟨position, text ++ tail⟩ = .ok (.map entries, ⟨position + text.length, tail⟩) := by
  unfold readHere
  apply reads_of_spells spelled
  · rw [List.length_append]
    omega
  · intro scalar same
    cases same

/-! ### What is read is spelled -/

/-- Whatever a number of steps reads is spelled by the text it takes. -/
structure Spelled (fuel : Nat) : Prop where
  value {depth : Nat} {c last : Cursor} {value : Value}
    (given : readValue fuel depth c = .ok (value, last)) :
    ∃ text, Spells depth text (.value value) ∧ c.rest = text ++ last.rest
  members {depth : Nat} {before after : Entries Value} {c last : Cursor}
    (given : readMembers fuel depth before c = .ok (after, last)) :
    ∃ text members, Spells depth text (.members members) ∧ after = before.putAll members ∧
      c.rest = text ++ last.rest
  items {depth : Nat} {c last : Cursor} {items : List Value}
    (given : readItems fuel depth c = .ok (items, last)) :
    ∃ text, Spells depth text (.items items) ∧ c.rest = text ++ last.rest

theorem spelled_of_readString {scalar : Scalar} (given : readString fuel c = .ok (scalar, last)) :
    ∃ text codes, StringRest text codes ∧ scalar = .ofCodes codes ∧ c.rest = text ++ last.rest := by
  obtain ⟨⟨codes, last'⟩, read, same⟩ := bind_eq_ok.mp given
  cases same
  obtain ⟨text, spelled, parts⟩ := spelled_of_readText read
  exact ⟨text, codes, spelled, rfl, parts⟩

theorem map_eq_ok {ε α β : Type} {outcome : Except ε α} {f : α → β} {result : β} :
    outcome.map f = .ok result ↔ ∃ value, outcome = .ok value ∧ f value = result := by
  cases outcome <;> simp [Except.map]

theorem exists_cons_of_head? {first : Char} (given : text.head? = some first) :
    ∃ rest, text = first :: rest := by
  cases text with
  | nil => cases given
  | cons ch rest =>
      cases given
      exact ⟨rest, rfl⟩

theorem rest_skip_one {first : Char} {rest : List Char} (given : c.rest = first :: rest) :
    (c.skip 1).rest = rest := by
  simp [Cursor.skip, given]

theorem Spelled.object {position : Nat} {rest : List Char} {value : Value} (ih : Spelled fuel)
    (given : readValue (fuel + 1) depth ⟨position, '\x7b' :: rest⟩ = .ok (value, last)) :
    ∃ text, Spells depth text (.value value) ∧ '\x7b' :: rest = text ++ last.rest := by
  obtain ⟨gap, blank, parts⟩ := exists_gap ⟨position + 1, rest⟩
  cases depth with
  | zero =>
      rw [readValue, if_pos rfl] at given
      cases given
  | succ depth =>
      rw [readValue_object] at given
      generalize Cursor.skipBlanks ⟨position + 1, rest⟩ = inside at given parts
      dsimp only at given parts
      split at given
      next closed =>
        cases given
        obtain ⟨others, opened⟩ := exists_cons_of_head? closed
        refine ⟨_, .emptyObject blank, ?_⟩
        simp [Cursor.skip, parts, opened]
      next =>
        obtain ⟨⟨entries, last'⟩, read, made⟩ := map_eq_ok.mp given
        cases made
        obtain ⟨text, members, spelled, rfl, behind⟩ := ih.members read
        refine ⟨_, .object blank spelled, ?_⟩
        rw [parts, behind]
        simp

theorem Spelled.array {position : Nat} {rest : List Char} {value : Value} (ih : Spelled fuel)
    (given : readValue (fuel + 1) depth ⟨position, '[' :: rest⟩ = .ok (value, last)) :
    ∃ text, Spells depth text (.value value) ∧ '[' :: rest = text ++ last.rest := by
  obtain ⟨gap, blank, parts⟩ := exists_gap ⟨position + 1, rest⟩
  cases depth with
  | zero =>
      rw [readValue, if_pos rfl] at given
      cases given
  | succ depth =>
      rw [readValue_array] at given
      generalize Cursor.skipBlanks ⟨position + 1, rest⟩ = inside at given parts
      dsimp only at given parts
      split at given
      next closed =>
        cases given
        obtain ⟨others, opened⟩ := exists_cons_of_head? closed
        refine ⟨_, .emptyArray blank, ?_⟩
        simp [Cursor.skip, parts, opened]
      next =>
        obtain ⟨⟨items, last'⟩, read, made⟩ := map_eq_ok.mp given
        cases made
        obtain ⟨text, spelled, behind⟩ := ih.items read
        refine ⟨_, .array blank spelled, ?_⟩
        rw [parts, behind]
        simp

theorem spelled_of_plain {value : Value} (no_string : c.rest.head? ≠ some '"')
    (no_object : c.rest.head? ≠ some '\x7b') (no_array : c.rest.head? ≠ some '[')
    (given : readValue (fuel + 1) depth c = .ok (value, last)) :
    ∃ text, Spells depth text (.value value) ∧ c.rest = text ++ last.rest := by
  rw [readValue_plain fuel depth no_string no_object no_array] at given
  split at given
  next word scalar found =>
    cases given
    obtain ⟨known, after, parts⟩ := append_of_word? found
    refine ⟨_, .word known, ?_⟩
    simp [Cursor.skip, parts, ← String.length_toList]
  next =>
    obtain ⟨⟨scalar, last'⟩, read, made⟩ := map_eq_ok.mp given
    cases made
    obtain ⟨text, spelled, parts⟩ := spelled_of_readNumber read
    exact ⟨text, .number spelled, parts⟩

theorem Spelled.value_succ {value : Value} (ih : Spelled fuel)
    (given : readValue (fuel + 1) depth c = .ok (value, last)) :
    ∃ text, Spells depth text (.value value) ∧ c.rest = text ++ last.rest := by
  obtain ⟨position, rest⟩ := c
  by_cases opens_string : rest.head? = some '"'
  · obtain ⟨rest, rfl⟩ := exists_cons_of_head? opens_string
    rw [readValue] at given
    obtain ⟨⟨scalar, last'⟩, read, made⟩ := bind_eq_ok.mp given
    cases made
    obtain ⟨text, codes, spelled, rfl, parts⟩ := spelled_of_readString read
    exact ⟨_, .string spelled, congrArg ('"' :: ·) parts⟩
  by_cases opens_object : rest.head? = some '\x7b'
  · obtain ⟨rest, rfl⟩ := exists_cons_of_head? opens_object
    exact ih.object given
  by_cases opens_array : rest.head? = some '['
  · obtain ⟨rest, rfl⟩ := exists_cons_of_head? opens_array
    exact ih.array given
  exact spelled_of_plain opens_string opens_object opens_array given

theorem Spelled.members_succ {before after : Entries Value} (ih : Spelled fuel)
    (given : readMembers (fuel + 1) depth before c = .ok (after, last)) :
    ∃ text members, Spells depth text (.members members) ∧ after = before.putAll members ∧
      c.rest = text ++ last.rest := by
  rw [readMembers] at given
  split at given
  · cases given
  next opened =>
  obtain ⟨rest, quote⟩ := exists_cons_of_head? (not_not.mp opened)
  obtain ⟨⟨key, afterKey⟩, name_read, given⟩ := bind_eq_ok.mp given
  obtain ⟨name, codes, named, rfl, name_parts⟩ := spelled_of_readString name_read
  obtain ⟨gap_before, blank_before, before_parts⟩ := exists_gap afterKey
  dsimp only at given
  split at given
  · cases given
  next colon =>
  obtain ⟨behind_colon, colon_parts⟩ := exists_cons_of_head? (not_not.mp colon)
  obtain ⟨gap_after, blank_after, after_parts⟩ := exists_gap (afterKey.skipBlanks.skip 1)
  obtain ⟨⟨value, afterValue⟩, value_read, given⟩ := bind_eq_ok.mp given
  obtain ⟨text, spelled, value_parts⟩ := ih.value value_read
  obtain ⟨gap_behind, blank_behind, behind_parts⟩ := exists_gap afterValue
  have member := Spells.member named blank_before blank_after spelled blank_behind
  rw [rest_skip_one quote] at name_parts
  rw [rest_skip_one colon_parts] at after_parts
  have parts : c.rest = '"' :: (name ++ (gap_before ++ ':' :: (gap_after ++ (text ++ gap_behind)))) ++
      afterValue.skipBlanks.rest := by
    rw [quote, name_parts, before_parts, colon_parts, after_parts, value_parts, behind_parts]
    simp
  dsimp only at given
  split at given
  next closed =>
    cases given
    obtain ⟨rest', closing⟩ := exists_cons_of_head? closed
    refine ⟨_, _, .lastMember member, rfl, ?_⟩
    rw [parts, closing, rest_skip_one closing]
    simp
  next comma =>
    obtain ⟨rest', separated⟩ := exists_cons_of_head? comma
    obtain ⟨gap, blank, gap_parts⟩ := exists_gap (afterValue.skipBlanks.skip 1)
    obtain ⟨text', members, others, rfl, others_parts⟩ := ih.members given
    refine ⟨_, _, .nextMember member blank others, rfl, ?_⟩
    rw [rest_skip_one separated] at gap_parts
    rw [parts, separated, gap_parts, others_parts]
    simp
  · cases given

theorem Spelled.items_succ {items : List Value} (ih : Spelled fuel)
    (given : readItems (fuel + 1) depth c = .ok (items, last)) :
    ∃ text, Spells depth text (.items items) ∧ c.rest = text ++ last.rest := by
  rw [readItems] at given
  obtain ⟨⟨item, afterItem⟩, item_read, given⟩ := bind_eq_ok.mp given
  obtain ⟨text, spelled, item_parts⟩ := ih.value item_read
  obtain ⟨gap_behind, blank_behind, behind_parts⟩ := exists_gap afterItem
  dsimp only at given
  split at given
  next closed =>
    cases given
    obtain ⟨rest, closing⟩ := exists_cons_of_head? closed
    refine ⟨_, .lastItem spelled blank_behind, ?_⟩
    rw [item_parts, behind_parts, closing, rest_skip_one closing]
    simp
  next comma =>
    obtain ⟨rest, separated⟩ := exists_cons_of_head? comma
    obtain ⟨gap, blank, gap_parts⟩ := exists_gap (afterItem.skipBlanks.skip 1)
    obtain ⟨⟨items', last'⟩, items_read, made⟩ := bind_eq_ok.mp given
    cases made
    obtain ⟨text', others, others_parts⟩ := ih.items items_read
    refine ⟨_, .nextItem spelled blank_behind blank others, ?_⟩
    rw [rest_skip_one separated] at gap_parts
    rw [item_parts, behind_parts, separated, gap_parts, others_parts]
    simp
  · cases given

/-- What is read is spelled by the text that is taken. -/
theorem spelled_of_read (fuel : Nat) : Spelled fuel := by
  induction fuel with
  | zero =>
      refine ⟨?_, ?_, ?_⟩
      · intro depth c last value given
        rw [readValue] at given
        cases given
      · intro depth before after c last given
        rw [readMembers] at given
        cases given
      · intro depth c last items given
        rw [readItems] at given
        cases given
  | succ fuel ih => exact ⟨ih.value_succ, ih.members_succ, ih.items_succ⟩

/-- Where an object is read, its text is taken. -/
theorem objectText_of_readHere {mark : Mark} {entries : Entries Value}
    (given : readHere c = .ok (.object mark entries, last)) :
    ∃ text, ObjectText text entries ∧ c.rest = text ++ last.rest := by
  obtain ⟨text, spelled, parts⟩ := (spelled_of_read _).value given
  refine ⟨text, ?_, parts⟩
  have unmarked : mark = [] := by
    generalize piece_eq : Piece.value (.object mark entries) = piece at spelled
    cases spelled <;> simp_all
  rw [unmarked] at spelled
  exact spelled

/-- The objects that are read whole are those of the grammar. -/
theorem objectText_iff {entries : Entries Value} :
    ObjectText text entries ↔ readHere ⟨0, text⟩ = .ok (.map entries, ⟨text.length, []⟩) := by
  constructor
  · intro spelled
    have read := readHere_of_objectText spelled 0 []
    rwa [List.append_nil, Nat.zero_add] at read
  · intro read
    obtain ⟨taken, spelled, parts⟩ := objectText_of_readHere read
    obtain rfl : text = taken := by simpa using parts
    exact spelled

end ServiceDoc.Json
