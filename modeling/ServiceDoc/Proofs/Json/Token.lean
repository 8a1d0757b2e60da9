import ServiceDoc.Json.Read
import ServiceDoc.Proofs.Text.Pieces
import ServiceDoc.Proofs.Value.Sorting
import Mathlib.Data.List.TakeWhile

/-!
# Strings, numbers and words of JSON

The texts that spell a scalar, and what each stands for, apart from the reader. Reading such a text
gives what it stands for and stops behind it (`readText_of_spelled`, `readNumber_of_spelled`), and
what the reader takes is always such a text (`spelled_of_readText`, `spelled_of_readNumber`). A
string ends by itself; a number ends where no character follows that could belong to it.
-/

namespace ServiceDoc.Json

variable {text tail : List Char} {start fuel : Nat} {c last : Cursor}

theorem Cursor.skip_append (position : Nat) (text tail : List Char) :
    Cursor.skip ⟨position, text ++ tail⟩ text.length = ⟨position + text.length, tail⟩ := by
  simp [Cursor.skip]

/-! ### Strings -/

/-- A code unit written as an escape with four hexadecimal digits. -/
inductive UnitEscape : List Char → Nat → Prop where
  | hex {digits : List Char} {code : Nat} (four : digits.length = 4)
      (value : Text.ofDigits? 16 digits = some code) : UnitEscape ('\\' :: 'u' :: digits) code

theorem UnitEscape.length_eq {escape : List Char} {code : Nat} (spelled : UnitEscape escape code) :
    escape.length = 6 := by
  cases spelled with
  | hex four => simp [four]

/-- The text of a string behind its opening quote, with the code points it stands for. -/
inductive StringRest : List Char → List Nat → Prop where
  | close : StringRest ['"'] []
  | plain {ch : Char} {text : List Char} {codes : List Nat} (no_quote : ch ≠ '"')
      (no_escape : ch ≠ '\\') (no_control : 32 ≤ ch.toNat) (rest : StringRest text codes) :
      StringRest (ch :: text) (ch.toNat :: codes)
  | escape {letter : Char} {code : Nat} {text : List Char} {codes : List Nat}
      (stands : simpleEscape? letter = some code) (rest : StringRest text codes) :
      StringRest ('\\' :: letter :: text) (code :: codes)
  /-- A high surrogate stands alone where no low one follows it. -/
  | unit {escape : List Char} {code : Nat} {text : List Char} {codes : List Nat}
      (spelled : UnitEscape escape code)
      (alone : Text.isHighSurrogate code = true → ∀ next low after, text = next ++ after →
        UnitEscape next low → Text.isLowSurrogate low = false)
      (rest : StringRest text codes) : StringRest (escape ++ text) (code :: codes)
  | pair {first second : List Char} {high low : Nat} {text : List Char} {codes : List Nat}
      (spelled : UnitEscape first high) (spelled_low : UnitEscape second low)
      (is_high : Text.isHighSurrogate high = true) (is_low : Text.isLowSurrogate low = true)
      (rest : StringRest text codes) :
      StringRest (first ++ (second ++ text)) (Text.joinPair high low :: codes)

theorem StringRest.ne_nil {codes : List Nat} (spelled : StringRest text codes) : text ≠ [] := by
  intro empty
  cases spelled with
  | close | plain | escape => simp at empty
  | unit spelled => cases spelled; simp at empty
  | pair spelled => cases spelled; simp at empty

theorem fourDigits?_append {digits : List Char} (four : digits.length = 4) (more : text ≠ []) :
    fourDigits? (digits ++ text) = Text.ofDigits? 16 digits := by
  simp [fourDigits?, ← four, more]

theorem lowHalf?_escape {escape : List Char} {low : Nat} (spelled : UnitEscape escape low)
    (more : text ≠ []) :
    lowHalf? (escape ++ text) = .ok (if Text.isLowSurrogate low then some low else none) := by
  cases spelled with
  | hex four value => simp [lowHalf?, ← four, more, value]

theorem lowHalf?_of_ne {rest : List Char} (closed : ∀ digits, rest ≠ '\\' :: 'u' :: digits) :
    lowHalf? rest = .ok none := by
  unfold lowHalf?
  split
  next digits => exact absurd rfl (closed digits)
  · rfl

theorem ne_u_of_simpleEscape? {letter : Char} {code : Nat}
    (stands : simpleEscape? letter = some code) : letter ≠ 'u' := by
  rintro rfl
  simp [simpleEscape?] at stands

/-- No low half is found where none is spelled. -/
theorem lowHalf?_alone {codes : List Nat} (spelled : StringRest text codes)
    (alone : ∀ next low after, text = next ++ after → UnitEscape next low →
      Text.isLowSurrogate low = false) : lowHalf? (text ++ tail) = .ok none := by
  cases spelled with
  | close => rfl
  | plain no_quote no_escape =>
      apply lowHalf?_of_ne
      intro digits same
      exact no_escape (List.cons.inj same).1
  | escape stands =>
      apply lowHalf?_of_ne
      intro digits same
      exact ne_u_of_simpleEscape? stands (List.cons.inj (List.cons.inj same).2).1
  | unit spelled _ rest =>
      have more := List.append_ne_nil_of_left_ne_nil rest.ne_nil tail
      rw [List.append_assoc, lowHalf?_escape spelled more, alone _ _ _ rfl spelled]
      rfl
  | @pair first second high low text codes spelled spelled_low _ _ rest =>
      have more : second ++ text ++ tail ≠ [] := by
        rw [List.append_assoc]
        exact List.append_ne_nil_of_right_ne_nil _ (by simp [rest.ne_nil])
      rw [List.append_assoc, lowHalf?_escape spelled more, alone _ _ _ rfl spelled]
      rfl

theorem readText_plain {ch : Char} {rest : List Char} (no_quote : ch ≠ '"') (no_escape : ch ≠ '\\')
    (no_control : 32 ≤ ch.toNat) (start fuel position : Nat) :
    readText start (fuel + 1) ⟨position, ch :: rest⟩ =
      (readText start fuel ⟨position + 1, rest⟩).map fun (codes, last) =>
        (ch.toNat :: codes, last) := by
  rw [readText]
  split
  next same => cases same
  next same => exact absurd (List.cons.inj same).1 no_quote
  next same => exact absurd (List.cons.inj same).1 no_escape
  next same => exact absurd (List.cons.inj same).1 no_escape
  next same => exact absurd (List.cons.inj same).1 no_escape
  next same =>
    obtain ⟨rfl, rfl⟩ := List.cons.inj same
    rw [if_neg (Nat.not_lt.mpr no_control)]
    rfl

theorem readText_unit {escape rest : List Char} {code : Nat} (spelled : UnitEscape escape code)
    (more : rest ≠ []) (start fuel position : Nat) :
    readText start (fuel + 1) ⟨position, escape ++ rest⟩ =
      match if Text.isHighSurrogate code then lowHalf? rest else .ok none with
      | .error () => .error (.malformed .unicodeEscape (position + 7))
      | .ok (some low) =>
        (readText start fuel ⟨position + 12, rest.drop 6⟩).map fun (codes, last) =>
          (Text.joinPair code low :: codes, last)
      | .ok none =>
        (readText start fuel ⟨position + 6, rest⟩).map fun (codes, last) =>
          (code :: codes, last) := by
  cases spelled with
  | @hex digits _ four value =>
      have behind : (digits ++ rest).drop 4 = rest := by simp [← four]
      have behind_pair : (digits ++ rest).drop 10 = rest.drop 6 := by
        rw [List.drop_append, four, List.drop_of_length_le (by omega), List.nil_append]
      simp only [List.cons_append, readText, fourDigits?_append four more, value, behind,
        Cursor.skip, List.drop_succ_cons, behind_pair]
      rfl

/-- Reading a string stops behind its closing quote. -/
theorem readText_of_spelled {codes : List Nat} (spelled : StringRest text codes) (start : Nat)
    (tail : List Char) {fuel : Nat} (enough : text.length ≤ fuel) (position : Nat) :
    readText start fuel ⟨position, text ++ tail⟩ =
      .ok (codes, ⟨position + text.length, tail⟩) := by
  induction spelled generalizing fuel position with
  | close =>
      obtain ⟨fuel, rfl⟩ := Nat.exists_eq_add_of_le' enough
      rfl
  | @plain ch text codes no_quote no_escape no_control rest ih =>
      obtain ⟨fuel, rfl⟩ := Nat.exists_eq_add_of_le' (Nat.le_of_add_left_le enough)
      have rest_read := ih (Nat.le_of_add_le_add_right enough) (position + 1)
      rw [List.cons_append, readText_plain no_quote no_escape no_control, rest_read,
        List.length_cons, Nat.add_assoc, Nat.add_comm 1]
      rfl
  | @escape letter code text codes stands rest ih =>
      obtain ⟨fuel, rfl⟩ := Nat.exists_eq_add_of_le' (Nat.le_of_add_left_le enough)
      have fuel_rest : text.length ≤ fuel := by
        simp only [List.length_cons] at enough
        omega
      have rest_read := ih fuel_rest (position + 2)
      have no_unit := ne_u_of_simpleEscape? stands
      simp only [List.cons_append, readText, Cursor.skip, List.drop_succ_cons, List.drop_zero,
        stands, rest_read]
      rw [List.length_cons, List.length_cons, Nat.add_assoc, Nat.add_comm 2]
      rfl
  | @unit escape code text codes spelled alone rest ih =>
      have six := spelled.length_eq
      rw [List.length_append, six] at enough
      obtain ⟨fuel, rfl⟩ := Nat.exists_eq_add_of_le' (Nat.le_of_add_right_le enough)
      have rest_read := ih (by omega : text.length ≤ fuel + 5) (position + 6)
      have more := List.append_ne_nil_of_left_ne_nil rest.ne_nil tail
      have no_pair : (if Text.isHighSurrogate code = true then lowHalf? (text ++ tail)
          else .ok none) = .ok none := by
        split
        next high => exact lowHalf?_alone rest (alone high)
        · rfl
      rw [List.append_assoc, readText_unit spelled more, no_pair, List.length_append, six,
        ← Nat.add_assoc]
      simp only [rest_read, Except.map]
  | @pair first second high low text codes spelled spelled_low is_high is_low rest ih =>
      have six := spelled.length_eq
      have six_low := spelled_low.length_eq
      rw [List.length_append, List.length_append, six, six_low] at enough
      obtain ⟨fuel, rfl⟩ := Nat.exists_eq_add_of_le' (Nat.le_of_add_right_le enough)
      have rest_read := ih (by omega : text.length ≤ fuel + 5) (position + 12)
      have more := List.append_ne_nil_of_left_ne_nil rest.ne_nil tail
      have more_low := List.append_ne_nil_of_right_ne_nil second more
      have behind : (second ++ (text ++ tail)).drop 6 = text ++ tail := by
        rw [← six_low, List.drop_left]
      rw [List.append_assoc, List.append_assoc, readText_unit spelled more_low, if_pos is_high,
        lowHalf?_escape spelled_low more, if_pos is_low, behind, List.length_append,
        List.length_append, six, six_low, ← Nat.add_assoc, ← Nat.add_assoc]
      simp only [rest_read, Except.map]

theorem escape_of_fourDigits? {code : Nat} (found : fourDigits? text = some code) :
    ∃ digits, UnitEscape ('\\' :: 'u' :: digits) code ∧ text = digits ++ text.drop 4 := by
  unfold fourDigits? at found
  split at found
  · cases found
  next more =>
    have four : (text.take 4).length = 4 := by
      simp only [List.isEmpty_iff, List.drop_eq_nil_iff] at more
      rw [List.length_take]
      omega
    exact ⟨text.take 4, .hex four found, (List.take_append_drop 4 text).symm⟩

theorem escape_of_lowHalf? {low : Nat} (found : lowHalf? text = .ok (some low)) :
    ∃ escape, UnitEscape escape low ∧ Text.isLowSurrogate low = true ∧
      text = escape ++ text.drop 6 := by
  unfold lowHalf? at found
  split at found
  next digits =>
    by_cases ended : (digits.drop 4).isEmpty
    · simp [ended] at found
    · cases value : Text.ofDigits? 16 (digits.take 4) with
      | none => simp [ended, value] at found
      | some code =>
          have four : fourDigits? digits = some code := by simp [fourDigits?, ended, value]
          obtain ⟨digits', spelled, parts⟩ := escape_of_fourDigits? four
          simp only [ended, value, Bool.false_eq_true, if_false] at found
          by_cases is_low : Text.isLowSurrogate code
          · rw [if_pos is_low] at found
            cases found
            refine ⟨_, spelled, is_low, ?_⟩
            rw [List.drop_succ_cons, List.drop_succ_cons, List.cons_append, List.cons_append,
              ← parts]
          · simp [is_low] at found
  · simp at found

/-- The escape of a code unit is not the text of a string, which goes on behind it. -/
theorem UnitEscape.not_stringRest {code : Nat} {codes : List Nat}
    (spelled : UnitEscape text code) : ¬StringRest text codes := by
  intro rest
  have six := spelled.length_eq
  cases spelled with
  | @hex digits _ four value =>
      generalize opened : '\\' :: 'u' :: digits = text at rest six
      cases rest with
      | close => simp at opened
      | plain no_quote no_escape => exact no_escape (List.cons.inj opened).1.symm
      | escape stands =>
          exact ne_u_of_simpleEscape? stands (List.cons.inj (List.cons.inj opened).2).1.symm
      | unit escaped _ others | pair escaped _ _ _ others =>
          rw [List.length_append, escaped.length_eq] at six
          have ended := List.eq_nil_of_length_eq_zero (Nat.add_left_cancel six)
          simp [others.ne_nil] at ended

/-- Where no low half is found, none is spelled. -/
theorem alone_of_lowHalf? {codes : List Nat} (rest : StringRest text codes)
    (no_low : lowHalf? (text ++ tail) = .ok none) :
    ∀ next low after, text = next ++ after → UnitEscape next low →
      Text.isLowSurrogate low = false := by
  rintro next low after rfl spelled
  have more : after ≠ [] := by
    rintro rfl
    rw [List.append_nil] at rest
    exact spelled.not_stringRest rest
  have more_tail := List.append_ne_nil_of_left_ne_nil more tail
  rw [List.append_assoc, lowHalf?_escape spelled more_tail] at no_low
  by_contra is_low
  simp [is_low] at no_low

/-- What is read up to the closing quote of a string is the text of one. -/
theorem spelled_of_readText {codes : List Nat}
    (given : readText start fuel c = .ok (codes, last)) :
    ∃ text, StringRest text codes ∧ c.rest = text ++ last.rest := by
  induction fuel generalizing c codes with
  | zero => simp [readText] at given
  | succ fuel ih =>
      rw [readText] at given
      split at given
      · cases given
      next rest same =>
        cases given
        exact ⟨['"'], .close, by simp [Cursor.skip, same]⟩
      · cases given
      next rest same =>
        split at given
        · cases given
        next code found =>
        obtain ⟨digits, spelled, parts⟩ := escape_of_fourDigits? found
        have opened : c.rest = '\\' :: 'u' :: digits ++ rest.drop 4 := by
          rw [same, List.cons_append, List.cons_append, ← parts]
        split at given
        · cases given
        next low found_low =>
          obtain ⟨⟨others, last'⟩, rest_read, same_codes⟩ := bind_eq_ok.mp given
          cases same_codes
          obtain ⟨text, spelled_rest, behind⟩ := ih rest_read
          split at found_low
          next is_high =>
            obtain ⟨second, spelled_low, is_low, parts_low⟩ := escape_of_lowHalf? found_low
            refine ⟨_, .pair spelled spelled_low is_high is_low spelled_rest, ?_⟩
            have behind_low : (rest.drop 4).drop 6 = text ++ last.rest := by
              rw [← behind]
              simp [Cursor.skip, same]
            rw [opened, parts_low, behind_low]
            simp
          · cases found_low
        next no_low =>
          obtain ⟨⟨others, last'⟩, rest_read, same_codes⟩ := bind_eq_ok.mp given
          cases same_codes
          obtain ⟨text, spelled_rest, behind⟩ := ih rest_read
          have behind_unit : rest.drop 4 = text ++ last.rest := by
            rw [← behind]
            simp [Cursor.skip, same]
          refine ⟨_, .unit spelled ?_ spelled_rest, by rw [opened, behind_unit]; simp⟩
          intro is_high
          rw [if_pos is_high, behind_unit] at no_low
          exact alone_of_lowHalf? spelled_rest no_low
      next letter rest not_last not_unit same =>
        split at given
        · cases given
        next code stands =>
          obtain ⟨⟨others, last'⟩, rest_read, same_codes⟩ := bind_eq_ok.mp given
          cases same_codes
          obtain ⟨text, spelled, behind⟩ := ih rest_read
          refine ⟨_, .escape stands spelled, ?_⟩
          simpa [Cursor.skip, same] using behind
      next ch rest no_quote no_end no_unit no_escape same =>
        split at given
        · cases given
        next no_control =>
          obtain ⟨⟨others, last'⟩, rest_read, same_codes⟩ := bind_eq_ok.mp given
          cases same_codes
          obtain ⟨text, spelled, behind⟩ := ih rest_read
          have no_backslash : ch ≠ '\\' := by
            intro escapes
            cases rest with
            | nil => exact no_end escapes rfl
            | cons letter others => exact no_escape letter others escapes rfl
          refine ⟨_, .plain no_quote no_backslash (Nat.not_lt.mp no_control) spelled, ?_⟩
          simpa [Cursor.skip, same] using behind

/-! ### Numbers -/

/-- One or more decimal digits. -/
def IsDigits (text : List Char) : Prop := text ≠ [] ∧ ∀ c ∈ text, Text.isDigit c = true

/-- The digits before the point; none stands behind a zero at the start. -/
inductive IsWhole : List Char → Prop where
  | zero : IsWhole ['0']
  | digits {text : List Char} (digits : IsDigits text) (no_zero : text.head? ≠ some '0') :
      IsWhole text

/-- The point and the digits behind it, or nothing. -/
inductive IsFraction : List Char → Prop where
  | none : IsFraction []
  | digits {digits : List Char} (formed : IsDigits digits) : IsFraction ('.' :: digits)

/-- An exponent with its letter and sign, or nothing. -/
inductive IsExponent : List Char → Prop where
  | none : IsExponent []
  | digits {letter : Char} {sign digits : List Char} (is_letter : letter = 'e' ∨ letter = 'E')
      (is_sign : sign = [] ∨ sign = ['+'] ∨ sign = ['-']) (formed : IsDigits digits) :
      IsExponent (letter :: (sign ++ digits))

/-- The sign of a number. -/
def signText (negative : Bool) : List Char := if negative then ['-'] else []

/-- The integer with a sign and digits. -/
def spelledInt (negative : Bool) (whole : List Char) : Int :=
  if negative then -(Text.ofDecimal whole : Int) else Text.ofDecimal whole

/-- The double with a sign, digits before and behind the point, and an exponent. -/
def spelledDouble (negative : Bool) (whole fraction exponent : List Char) : Double :=
  Double.ofDecimal negative (Text.ofDecimal (whole ++ fraction.drop 1))
    (exponentValue exponent - (fraction.drop 1).length)

/-- The text of a number with the scalar it stands for. -/
inductive Number : List Char → Scalar → Prop where
  | int (negative : Bool) {whole : List Char} (formed : IsWhole whole)
      (short : whole.length ≤ maxDigits) :
      Number (signText negative ++ whole) (.int (spelledInt negative whole))
  | double (negative : Bool) {whole fraction exponent : List Char} (formed : IsWhole whole)
      (is_fraction : IsFraction fraction) (is_exponent : IsExponent exponent)
      (real : fraction ≠ [] ∨ exponent ≠ []) :
      Number (signText negative ++ (whole ++ (fraction ++ exponent)))
        (.double (spelledDouble negative whole fraction exponent))

/-- No digit stands first. -/
def NoDigit (text : List Char) : Prop := ∀ c, text.head? = some c → Text.isDigit c = false

/-- A number can end before this text. -/
def EndsNumber (text : List Char) : Prop :=
  ∀ c, text.head? = some c → Text.isDigit c = false ∧ c ≠ '.' ∧ c ≠ 'e' ∧ c ≠ 'E'

theorem EndsNumber.noDigit (ends : EndsNumber text) : NoDigit text := by
  intro c first
  exact (ends c first).1

/-- The digits before the point, as the reader takes them. -/
def wholeOf (text : List Char) : List Char :=
  match text with
  | '0' :: _ => ['0']
  | _ => text.takeWhile Text.isDigit

theorem wholeOf_append {whole : List Char} (formed : IsWhole whole) (ends : NoDigit tail) :
    wholeOf (whole ++ tail) = whole := by
  cases formed with
  | zero => rfl
  | digits digits no_zero =>
      unfold wholeOf
      split
      next rest same =>
        cases whole with
        | nil => exact absurd rfl digits.1
        | cons first others => simp [(List.cons.inj same).1] at no_zero
      · exact Text.takeWhile_append_of_stop digits.2 ends

theorem fractionLength_append {fraction : List Char} (formed : IsFraction fraction)
    (ends : NoDigit tail) (no_point : tail.head? ≠ some '.') :
    fractionLength (fraction ++ tail) = fraction.length := by
  cases formed with
  | none =>
      rw [List.nil_append]
      unfold fractionLength
      split
      · simp at no_point
      · rfl
  | digits formed =>
      simp [fractionLength, Text.takeWhile_append_of_stop formed.2 ends, formed.1, Nat.add_comm]

theorem exponentLength_append {exponent : List Char} (formed : IsExponent exponent)
    (ends : EndsNumber tail) : exponentLength (exponent ++ tail) = exponent.length := by
  cases formed with
  | none =>
      rw [List.nil_append]
      cases tail with
      | nil => rfl
      | cons c rest =>
          obtain ⟨-, -, not_small, not_large⟩ := ends c rfl
          simp [exponentLength, not_small, not_large]
  | @digits letter sign digits is_letter is_sign formed =>
      have taken := Text.takeWhile_append_of_stop formed.2 ends.noDigit
      rcases is_sign with rfl | rfl | rfl
      · cases digits with
        | nil => exact absurd rfl formed.1
        | cons first others =>
            have first_digit := formed.2 first (List.mem_cons_self)
            have no_sign : ¬(first = '+' ∨ first = '-') := by
              rintro (rfl | rfl) <;> simp [Text.isDigit] at first_digit
            simp only [List.nil_append, List.cons_append] at taken ⊢
            simp [exponentLength, is_letter, no_sign, taken, Nat.add_comm]
      · simp [exponentLength, is_letter, taken, formed.1]
        omega
      · simp [exponentLength, is_letter, taken, formed.1]
        omega

/-- What stands behind the whole part or the fraction of a number that ends here. -/
theorem IsExponent.head_append {exponent : List Char} (formed : IsExponent exponent)
    (ends : EndsNumber tail) :
    NoDigit (exponent ++ tail) ∧ (exponent ++ tail).head? ≠ some '.' := by
  cases formed with
  | none => exact ⟨ends.noDigit, fun first => (ends '.' first).2.1 rfl⟩
  | digits is_letter =>
      rcases is_letter with rfl | rfl <;> simp [NoDigit, Text.isDigit]

theorem IsFraction.noDigit_append {fraction rest : List Char} (formed : IsFraction fraction)
    (ends : NoDigit rest) : NoDigit (fraction ++ rest) := by
  cases formed with
  | none => exact ends
  | digits => simp [NoDigit, Text.isDigit]

theorem IsWhole.exists_cons {whole : List Char} (formed : IsWhole whole) :
    ∃ first others, whole = first :: others ∧ Text.isDigit first = true := by
  cases formed with
  | zero => exact ⟨'0', [], rfl, rfl⟩
  | digits digits =>
      cases whole with
      | nil => exact absurd rfl digits.1
      | cons first others => exact ⟨first, others, rfl, digits.2 first List.mem_cons_self⟩

/-- What the reader makes of the parts of a number. -/
def numberValue (negative : Bool) (whole fraction exponent : List Char) : Except ReadError Scalar :=
  if fraction.isEmpty && exponent.isEmpty then
    if maxDigits < whole.length then .error .longInteger
    else .ok (.int (spelledInt negative whole))
  else .ok (.double (spelledDouble negative whole fraction exponent))

/-- The reader takes the longest parts it finds, one after the other. -/
theorem readNumber_eq {negative : Bool} {whole fraction exponent after : List Char}
    (signed : (c.rest.head? = some '-') = negative)
    (parts : c.rest = signText negative ++ (whole ++ (fraction ++ (exponent ++ after))))
    (is_whole : wholeOf (whole ++ (fraction ++ (exponent ++ after))) = whole)
    (nonempty : whole ≠ [])
    (is_fraction : fractionLength (fraction ++ (exponent ++ after)) = fraction.length)
    (is_exponent : exponentLength (exponent ++ after) = exponent.length) :
    readNumber c = (numberValue negative whole fraction exponent).map fun scalar =>
      (scalar, c.skip (signText negative ++ (whole ++ (fraction ++ exponent))).length) := by
  unfold readNumber
  extract_lets is_negative unsigned whole' afterWhole fraction' afterFraction exponent' last
    magnitude places
  have unsigned_eq : unsigned = whole ++ (fraction ++ (exponent ++ after)) := by
    cases negative <;> simp [unsigned, is_negative, signed, parts, signText]
  have whole_eq : whole' = whole := by
    rw [← is_whole, ← unsigned_eq]
    rfl
  have afterWhole_eq : afterWhole = fraction ++ (exponent ++ after) := by
    simp only [afterWhole, whole_eq, unsigned_eq, List.drop_left]
  have fraction_eq : fraction' = fraction := by
    simp only [fraction', afterWhole_eq, is_fraction, List.take_left]
  have afterFraction_eq : afterFraction = exponent ++ after := by
    simp only [afterFraction, afterWhole_eq, fraction_eq, List.drop_left]
  have exponent_eq : exponent' = exponent := by
    simp only [exponent', afterFraction_eq, is_exponent, List.take_left]
  have last_eq : last =
      c.skip (signText negative ++ (whole ++ (fraction ++ exponent))).length := by
    have sign_length : (signText negative).length = if negative then 1 else 0 := by
      cases negative <;> rfl
    simp only [last, is_negative, signed, whole_eq, fraction_eq, exponent_eq, List.length_append,
      sign_length, Nat.add_assoc]
  rw [if_neg (by simpa [whole_eq] using nonempty), last_eq, fraction_eq, exponent_eq, whole_eq]
  unfold numberValue
  split
  · split
    · rfl
    · simp only [is_negative, signed, magnitude, whole_eq]
      rfl
  · simp only [is_negative, signed, places, fraction_eq, Bool.decide_eq_true]
    rfl

/-- Where a number ends, reading takes exactly its parts. -/
theorem readNumber_of_parts {negative : Bool} {whole fraction exponent : List Char}
    (formed : IsWhole whole) (is_fraction : IsFraction fraction)
    (is_exponent : IsExponent exponent) (ends : EndsNumber tail) (position : Nat)
    (same : text = signText negative ++ (whole ++ (fraction ++ exponent))) :
    readNumber ⟨position, text ++ tail⟩ =
      (numberValue negative whole fraction exponent).map fun scalar =>
        (scalar, ⟨position + text.length, tail⟩) := by
  obtain ⟨exponent_no_digit, no_point⟩ := is_exponent.head_append ends
  have no_digit := is_fraction.noDigit_append exponent_no_digit
  have parts : text ++ tail = signText negative ++ (whole ++ (fraction ++ (exponent ++ tail))) := by
    simp [same]
  obtain ⟨first, others, whole_eq, first_digit⟩ := formed.exists_cons
  have first_ne : first ≠ '-' := by
    rintro rfl
    simp [Text.isDigit] at first_digit
  have signed : ((text ++ tail).head? = some '-') = negative := by
    cases negative <;> simp [parts, signText, whole_eq, first_ne]
  rw [readNumber_eq signed parts (wholeOf_append formed no_digit) (by simp [whole_eq])
    (fractionLength_append is_fraction exponent_no_digit no_point)
    (exponentLength_append is_exponent ends), ← same, Cursor.skip_append]

/-- Where a number ends, reading takes exactly its text. -/
theorem readNumber_of_spelled {scalar : Scalar} (spelled : Number text scalar)
    (ends : EndsNumber tail) (position : Nat) :
    readNumber ⟨position, text ++ tail⟩ = .ok (scalar, ⟨position + text.length, tail⟩) := by
  cases spelled with
  | @int negative whole formed short =>
      have same : signText negative ++ whole = signText negative ++ (whole ++ ([] ++ [])) := by simp
      rw [readNumber_of_parts formed .none .none ends position same, numberValue]
      simp [Nat.not_lt.mpr short, Except.map]
  | @double negative whole fraction exponent formed is_fraction is_exponent real =>
      rw [readNumber_of_parts formed is_fraction is_exponent ends position rfl, numberValue,
        if_neg (by simpa [← not_and_or] using real)]
      rfl

theorem isDigits_takeWhile (given : text.takeWhile Text.isDigit ≠ []) :
    IsDigits (text.takeWhile Text.isDigit) := by
  refine ⟨given, ?_⟩
  intro c member
  exact List.mem_takeWhile_imp member

theorem exists_whole (given : wholeOf text ≠ []) :
    IsWhole (wholeOf text) ∧ ∃ after, text = wholeOf text ++ after := by
  unfold wholeOf at given ⊢
  split
  next rest => exact ⟨.zero, rest, rfl⟩
  next no_zero =>
    have digits : IsDigits (text.takeWhile Text.isDigit) := by
      apply isDigits_takeWhile
      intro empty
      exact given (by simpa using empty)
    refine ⟨.digits digits ?_, _, List.takeWhile_append_dropWhile.symm⟩
    intro zero
    cases text with
    | nil => simp at zero
    | cons first rest =>
        rw [List.takeWhile_cons] at zero
        split at zero
        · simp only [List.head?_cons, Option.some.injEq] at zero
          exact no_zero rest (by rw [zero])
        · simp at zero

theorem exists_fraction (text : List Char) :
    ∃ fraction after, text = fraction ++ after ∧ IsFraction fraction ∧
      fractionLength text = fraction.length := by
  unfold fractionLength
  split
  next rest =>
    by_cases none_follows : (rest.takeWhile Text.isDigit).isEmpty
    · refine ⟨[], _, rfl, .none, ?_⟩
      simp [none_follows]
    · refine ⟨'.' :: rest.takeWhile Text.isDigit, rest.dropWhile Text.isDigit, ?_, ?_, ?_⟩
      · rw [List.cons_append, List.takeWhile_append_dropWhile]
      · exact .digits (isDigits_takeWhile (by simpa using none_follows))
      · simp only [none_follows, List.length_cons]
        rw [if_neg (by simp), Nat.add_comm]
  · exact ⟨[], _, rfl, .none, rfl⟩

theorem exists_exponent (text : List Char) :
    ∃ exponent after, text = exponent ++ after ∧ IsExponent exponent ∧
      exponentLength text = exponent.length := by
  unfold exponentLength
  split
  next letter rest =>
    split
    next is_letter =>
      extract_lets sign digits
      obtain ⟨mark, is_sign, rest_eq, mark_length⟩ : ∃ mark, (mark = [] ∨ mark = ['+'] ∨
          mark = ['-']) ∧ rest = mark ++ rest.drop sign ∧ mark.length = sign := by
        unfold sign
        split
        next s others =>
          split
          next is_sign => exact ⟨[s], by simpa using is_sign, rfl, rfl⟩
          · exact ⟨[], by simp, rfl, rfl⟩
        · exact ⟨[], by simp, rfl, rfl⟩
      by_cases none_follows : digits.isEmpty
      · exact ⟨[], _, rfl, .none, by simp [none_follows]⟩
      · refine ⟨letter :: (mark ++ digits), (rest.drop sign).dropWhile Text.isDigit, ?_, ?_, ?_⟩
        · rw [List.cons_append, List.append_assoc, List.takeWhile_append_dropWhile, ← rest_eq]
        · refine .digits (by simpa using is_letter) is_sign (isDigits_takeWhile ?_)
          intro empty
          exact none_follows (List.isEmpty_iff.mpr empty)
        · rw [if_neg none_follows, List.length_cons, List.length_append, mark_length]
          omega
    · exact ⟨[], _, rfl, .none, rfl⟩
  · exact ⟨[], _, rfl, .none, rfl⟩

theorem Number.of_numberValue {negative : Bool} {whole fraction exponent : List Char}
    {scalar : Scalar} (formed : IsWhole whole) (is_fraction : IsFraction fraction)
    (is_exponent : IsExponent exponent)
    (value : numberValue negative whole fraction exponent = .ok scalar) :
    Number (signText negative ++ (whole ++ (fraction ++ exponent))) scalar := by
  unfold numberValue at value
  split at value
  next is_whole =>
    obtain ⟨rfl, rfl⟩ : fraction = [] ∧ exponent = [] := by simpa using is_whole
    split at value
    · cases value
    next short =>
      cases value
      simpa using Number.int negative formed (Nat.not_lt.mp short)
  next real =>
    cases value
    refine .double negative formed is_fraction is_exponent ?_
    simpa [← not_and_or] using real

theorem exists_signText (text : List Char) :
    ∃ negative unsigned, text = signText negative ++ unsigned ∧
      ((text.head? = some '-') = (negative = true)) := by
  cases text with
  | nil => exact ⟨false, [], rfl, by simp⟩
  | cons first rest =>
      by_cases negative : first = '-'
      · exact ⟨true, rest, by rw [negative]; rfl, by simp [negative]⟩
      · exact ⟨false, first :: rest, rfl, by simp [negative]⟩

theorem readNumber_of_wholeOf_nil {negative : Bool} {unsigned : List Char}
    (signed : (c.rest.head? = some '-') = negative) (parts : c.rest = signText negative ++ unsigned)
    (empty : wholeOf unsigned = []) : readNumber c = c.fail .value := by
  unfold readNumber
  extract_lets is_negative unsigned' whole
  have unsigned_eq : unsigned' = unsigned := by
    cases negative <;> simp [unsigned', is_negative, signed, parts, signText]
  have whole_eq : whole = [] := by
    rw [← empty, ← unsigned_eq]
    rfl
  rw [if_pos (by rw [whole_eq]; rfl)]

/-- What is read as a number is the text of one. -/
theorem spelled_of_readNumber {scalar : Scalar} (given : readNumber c = .ok (scalar, last)) :
    ∃ text, Number text scalar ∧ c.rest = text ++ last.rest := by
  obtain ⟨negative, unsigned, parts, signed⟩ := exists_signText c.rest
  have nonempty : wholeOf unsigned ≠ [] := by
    intro empty
    rw [readNumber_of_wholeOf_nil signed parts empty] at given
    cases given
  obtain ⟨formed, behind_whole, whole_eq⟩ := exists_whole nonempty
  obtain ⟨fraction, behind_fraction, rfl, is_fraction, fraction_taken⟩ :=
    exists_fraction behind_whole
  obtain ⟨exponent, after, rfl, is_exponent, exponent_taken⟩ := exists_exponent behind_fraction
  rw [whole_eq] at parts
  rw [readNumber_eq signed parts (by rw [← whole_eq]) nonempty fraction_taken exponent_taken]
    at given
  cases value : numberValue negative (wholeOf unsigned) fraction exponent with
  | error error => simp [value, Except.map] at given
  | ok number =>
      simp only [value, Except.map, Except.ok.injEq, Prod.mk.injEq] at given
      obtain ⟨rfl, rfl⟩ := given
      refine ⟨_, .of_numberValue formed is_fraction is_exponent value, ?_⟩
      simp [Cursor.skip, parts]

/-! ### Words -/

theorem word?_append {word : String} {scalar : Scalar} (member : (word, scalar) ∈ words)
    (tail : List Char) : word? (word.toList ++ tail) = some (word, scalar) := by
  simp only [words, List.mem_cons, Prod.mk.injEq, List.not_mem_nil, or_false] at member
  rcases member with ⟨rfl, rfl⟩ | ⟨rfl, rfl⟩ | ⟨rfl, rfl⟩ | ⟨rfl, rfl⟩ | ⟨rfl, rfl⟩ | ⟨rfl, rfl⟩ <;>
    rfl

theorem append_of_word? {word : String} {scalar : Scalar}
    (found : word? text = some (word, scalar)) :
    (word, scalar) ∈ words ∧ ∃ after, text = word.toList ++ after := by
  refine ⟨List.mem_of_find?_eq_some found, ?_⟩
  have starts := List.find?_some found
  obtain ⟨after, same⟩ := List.isPrefixOf_iff_prefix.mp starts
  exact ⟨after, same.symm⟩

theorem Number.exists_head {scalar : Scalar} (spelled : Number text scalar) :
    ∃ negative first others, text = signText negative ++ first :: others ∧
      Text.isDigit first = true := by
  cases spelled with
  | int negative formed | double negative formed =>
      obtain ⟨first, others, rfl, is_digit⟩ := formed.exists_cons
      exact ⟨negative, first, _, rfl, is_digit⟩

/-- No word starts with a digit, or with a minus and a digit. -/
theorem word?_number {scalar : Scalar} (spelled : Number text scalar) (tail : List Char) :
    word? (text ++ tail) = none := by
  obtain ⟨negative, first, others, rfl, is_digit⟩ := spelled.exists_head
  have differ (letter : Char) (no_digit : Text.isDigit letter = false) :
      (letter == first) = false := by
    rw [beq_eq_false_iff_ne]
    rintro rfl
    simp [no_digit] at is_digit
  cases negative <;>
    simp [word?, words, signText, List.isPrefixOf, differ 'n' rfl, differ 't' rfl, differ 'f' rfl,
      differ 'N' rfl, differ 'I' rfl, differ '-' rfl]

end ServiceDoc.Json
