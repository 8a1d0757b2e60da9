import ServiceDoc.Proofs.Json.Grammar
import ServiceDoc.Proofs.OpenApi.Patch
import ServiceDoc.Value.Closed
import ServiceDoc.Value.Shown

/-!
# What JSON gives

The values that a text of JSON spells: trees of sequences and mappings whose keys are texts, without
an integer that is too long to be shown. Marking the containers of such a value gives such a value,
and each part of it stands on its own, since no container is met again inside of itself.
-/

namespace ServiceDoc

mutual
/-- A value can come from a text of JSON, whatever its containers are marked with. -/
def Value.isDecoded : Value → Bool
  | .scalar scalar => scalar.isJson && !scalar.isLong
  | .array _ items => areDecoded items
  | .object _ entries => holdDecoded entries
  | _ => false

/-- Values can come from a text of JSON. -/
def areDecoded : List Value → Bool
  | [] => true
  | item :: items => item.isDecoded && areDecoded items

/-- The entries of a mapping can come from a text of JSON. -/
def holdDecoded : List (Scalar × Value) → Bool
  | [] => true
  | (key, value) :: entries => key.isJsonKey && value.isDecoded && holdDecoded entries
end

variable {value : Value} {entries : Entries Value} {key : Scalar}

@[simp] theorem holdDecoded_cons :
    holdDecoded ((key, value) :: entries) = true ↔
      key.isJsonKey = true ∧ value.isDecoded = true ∧ holdDecoded entries = true := by
  rw [holdDecoded, Bool.and_eq_true, Bool.and_eq_true, and_assoc]

theorem isDecoded_of_mem {entry : Scalar × Value} (decoded : holdDecoded entries = true)
    (member : entry ∈ entries) : entry.2.isDecoded = true := by
  induction entries with
  | nil => exact (List.not_mem_nil member).elim
  | cons first rest ih =>
      obtain ⟨-, first_decoded, rest_decoded⟩ := holdDecoded_cons.mp decoded
      rcases List.mem_cons.mp member with rfl | member
      · exact first_decoded
      · exact ih rest_decoded member

theorem isDecoded_of_mem_items {item : Value} {items : List Value}
    (decoded : areDecoded items = true) (member : item ∈ items) : item.isDecoded = true := by
  induction items with
  | nil => exact (List.not_mem_nil member).elim
  | cons first rest ih =>
      rw [areDecoded, Bool.and_eq_true] at decoded
      rcases List.mem_cons.mp member with rfl | member
      · exact decoded.1
      · exact ih decoded.2 member

theorem Scalar.isLong_of_isJsonKey (json : key.isJsonKey = true) : key.isLong = false := by
  cases key with
  | string | surrogates => rfl
  | _ => exact (Bool.false_ne_true json).elim

mutual

/-- What comes from a text of JSON can be shown. -/
theorem Value.holdsLong_of_isDecoded (value : Value) (decoded : value.isDecoded = true) :
    value.holdsLong = false :=
  match value with
  | .scalar scalar => by
      rw [Value.isDecoded, Bool.and_eq_true, Bool.not_eq_true'] at decoded
      exact decoded.2
  | .array _ items => itemsHoldLong_of_areDecoded items decoded
  | .object _ entries => entriesHoldLong_of_holdDecoded entries decoded
  | .pair .. | .set .. | .enclosing .. => (Bool.false_ne_true decoded).elim

theorem itemsHoldLong_of_areDecoded (items : List Value) (decoded : areDecoded items = true) :
    Value.itemsHoldLong items = false :=
  match items with
  | [] => rfl
  | item :: rest => by
      rw [areDecoded, Bool.and_eq_true] at decoded
      rw [Value.itemsHoldLong, Value.holdsLong_of_isDecoded item decoded.1,
        itemsHoldLong_of_areDecoded rest decoded.2]
      rfl

theorem entriesHoldLong_of_holdDecoded (entries : List (Scalar × Value))
    (decoded : holdDecoded entries = true) : Value.entriesHoldLong entries = false :=
  match entries with
  | [] => rfl
  | (key, value) :: rest => by
      obtain ⟨json, value_decoded, rest_decoded⟩ := holdDecoded_cons.mp decoded
      rw [Value.entriesHoldLong, Scalar.isLong_of_isJsonKey json,
        Value.holdsLong_of_isDecoded value value_decoded,
        entriesHoldLong_of_holdDecoded rest rest_decoded]
      rfl

end

/-! ### Standing on its own -/

section Closed

variable (target : Mark) (container : Value)

mutual

theorem Value.plug_of_isDecoded (value : Value) (decoded : value.isDecoded = true) :
    Value.plug target container value = value :=
  match value with
  | .scalar _ => rfl
  | .array _ items => by
      rw [Value.plug, plugItems_of_areDecoded items decoded, ite_self]
  | .object _ entries => by
      rw [Value.plug, plugEntries_of_holdDecoded entries decoded, ite_self]
  | .pair .. | .set .. | .enclosing .. => (Bool.false_ne_true decoded).elim

theorem plugItems_of_areDecoded (items : List Value) (decoded : areDecoded items = true) :
    Value.plugItems target container items = items :=
  match items with
  | [] => rfl
  | item :: rest => by
      rw [areDecoded, Bool.and_eq_true] at decoded
      rw [Value.plugItems, Value.plug_of_isDecoded item decoded.1,
        plugItems_of_areDecoded rest decoded.2]

theorem plugEntries_of_holdDecoded (entries : List (Scalar × Value))
    (decoded : holdDecoded entries = true) : Value.plugEntries target container entries = entries :=
  match entries with
  | [] => rfl
  | (key, value) :: rest => by
      obtain ⟨-, value_decoded, rest_decoded⟩ := holdDecoded_cons.mp decoded
      rw [Value.plugEntries, Value.plug_of_isDecoded value value_decoded,
        plugEntries_of_holdDecoded rest rest_decoded]

end

end Closed

/-- What comes from a text of JSON stands on its own wherever it is met. -/
theorem Value.closed_of_isDecoded (around : Surroundings) (decoded : value.isDecoded = true) :
    value.closed around = value := by
  unfold closed
  induction around with
  | nil => rfl
  | cons first rest ih =>
      rw [List.foldl_cons]
      dsimp only
      rw [plug_of_isDecoded first.1 first.2 value decoded, ih]

/-! ### Marks -/

mutual

/-- Marking the containers of a value changes nothing in what it can come from. -/
theorem Value.isDecoded_markedFrom (root : Mark) (value : Value) :
    (value.markedFrom root).isDecoded = value.isDecoded :=
  match value with
  | .scalar _ | .pair .. | .set .. | .enclosing .. => rfl
  | .array _ items => areDecoded_markedItems root 0 items
  | .object _ entries => holdDecoded_markedEntries root 0 entries

theorem areDecoded_markedItems (root : Mark) (position : Nat) (items : List Value) :
    areDecoded (Value.markedItems root position items) = areDecoded items :=
  match items with
  | [] => rfl
  | item :: rest => by
      rw [Value.markedItems, areDecoded, areDecoded, Value.isDecoded_markedFrom _ item,
        areDecoded_markedItems root _ rest]

theorem holdDecoded_markedEntries (root : Mark) (position : Nat)
    (entries : List (Scalar × Value)) :
    holdDecoded (Value.markedEntries root position entries) = holdDecoded entries :=
  match entries with
  | [] => rfl
  | (key, value) :: rest => by
      rw [Value.markedEntries, holdDecoded, holdDecoded, Value.isDecoded_markedFrom _ value,
        holdDecoded_markedEntries root _ rest]

end

/-! ### From a text -/

theorem holdDecoded_put (decoded : holdDecoded entries = true) (json : key.isJsonKey = true)
    (given : value.isDecoded = true) : holdDecoded (Entries.put entries key value) = true := by
  induction entries with
  | nil => exact holdDecoded_cons.mpr ⟨json, given, rfl⟩
  | cons entry rest ih =>
      obtain ⟨other, old⟩ := entry
      obtain ⟨other_json, old_decoded, rest_decoded⟩ := holdDecoded_cons.mp decoded
      rw [Entries.put]
      split
      · exact holdDecoded_cons.mpr ⟨other_json, given, rest_decoded⟩
      · exact holdDecoded_cons.mpr ⟨other_json, old_decoded, ih rest_decoded⟩

theorem holdDecoded_putAll {others : Entries Value} (decoded : holdDecoded entries = true)
    (given : holdDecoded others = true) : holdDecoded (Entries.putAll entries others) = true := by
  unfold Entries.putAll
  induction others generalizing entries with
  | nil => exact decoded
  | cons entry rest ih =>
      obtain ⟨key, value⟩ := entry
      obtain ⟨json, value_decoded, rest_decoded⟩ := holdDecoded_cons.mp given
      exact ih (holdDecoded_put decoded json value_decoded) rest_decoded

theorem Scalar.isJsonKey_ofCodes (codes : List Nat) : (Scalar.ofCodes codes).isJsonKey = true := by
  unfold ofCodes
  split <;> rfl

namespace Json

theorem ofDecimal_lt {whole : List Char} (digits : ∀ c ∈ whole, Text.isDigit c = true) :
    Text.ofDecimal whole < Nat.pow 10 whole.length := by
  induction whole using List.reverseRecOn with
  | nil => exact Nat.one_pos
  | append_singleton others last ih =>
      have smaller : Text.ofDecimal others < Nat.pow 10 others.length := by
        apply ih
        intro c member
        exact digits c (List.mem_append_left _ member)
      have digit : last.toNat - 48 ≤ 9 := by
        have is_digit := digits last (List.mem_append_right _ (.head _))
        rw [Text.isDigit, Bool.and_eq_true, decide_eq_true_eq, decide_eq_true_eq] at is_digit
        have upper : last.toNat ≤ 57 := is_digit.2
        omega
      rw [Text.ofDecimal, List.foldl_concat, List.length_append, List.length_singleton]
      change Text.ofDecimal others * 10 + (last.toNat - 48) < Nat.pow 10 others.length * 10
      omega

theorem IsWhole.isDigit {whole : List Char} (formed : IsWhole whole) :
    ∀ c ∈ whole, Text.isDigit c = true := by
  cases formed with
  | zero => exact List.all_eq_true.mp rfl
  | digits digits => exact digits.2

theorem isLongInteger_eq_false {n : Int} {count : Nat} (small : n.natAbs < Nat.pow 10 count)
    (short : count ≤ maxDigits) : isLongInteger n = false := by
  apply decide_eq_false
  unfold longInteger
  unfold maxDigits at short
  -- the power is not to be computed
  generalize 4300 = limit at *
  apply Nat.not_le_of_lt
  exact Nat.lt_of_lt_of_le small (Nat.pow_le_pow_right (Nat.succ_pos 9) short)

theorem natAbs_spelledInt (negative : Bool) (whole : List Char) :
    (spelledInt negative whole).natAbs = Text.ofDecimal whole := by
  cases negative with
  | false => rfl
  | true => exact Int.natAbs_neg _

theorem Number.isDecoded {text : List Char} {scalar : Scalar} (spelled : Number text scalar) :
    (Value.scalar scalar).isDecoded = true := by
  cases spelled with
  | double => rfl
  | @int negative whole formed short =>
      have small := ofDecimal_lt formed.isDigit
      rw [← natAbs_spelledInt negative] at small
      rw [Value.isDecoded, Scalar.isLong, isLongInteger_eq_false small short]
      rfl

/-- What a piece holds can come from a text of JSON. -/
def Piece.isDecoded : Piece → Bool
  | .value value => value.isDecoded
  | .member key value => key.isJsonKey && value.isDecoded
  | .members entries => holdDecoded entries
  | .items values => areDecoded values

theorem isDecoded_ofCodes (codes : List Nat) :
    (Value.scalar (.ofCodes codes)).isDecoded = true := by
  unfold Scalar.ofCodes
  split <;> rfl

theorem Spells.isDecoded {depth : Nat} {text : List Char} {piece : Piece}
    (spelled : Spells depth text piece) : piece.isDecoded = true := by
  induction spelled with
  | string => exact isDecoded_ofCodes _
  | word known =>
      simp only [words, List.mem_cons, Prod.mk.injEq, List.not_mem_nil, or_false] at known
      rcases known with ⟨-, rfl⟩ | ⟨-, rfl⟩ | ⟨-, rfl⟩ | ⟨-, rfl⟩ | ⟨-, rfl⟩ | ⟨-, rfl⟩ <;> rfl
  | number spelled => exact spelled.isDecoded
  | emptyObject | emptyArray => rfl
  | object _ _ ih =>
      have empty : holdDecoded ([] : Entries Value) = true := rfl
      exact holdDecoded_putAll empty ih
  | array _ _ ih => exact ih
  | member _ _ _ _ _ ih => exact Bool.and_eq_true_iff.mpr ⟨Scalar.isJsonKey_ofCodes _, ih⟩
  | lastMember _ ih =>
      obtain ⟨json, given⟩ := Bool.and_eq_true_iff.mp ih
      exact holdDecoded_cons.mpr ⟨json, given, rfl⟩
  | nextMember _ _ _ first others =>
      obtain ⟨json, given⟩ := Bool.and_eq_true_iff.mp first
      exact holdDecoded_cons.mpr ⟨json, given, others⟩
  | lastItem _ _ ih => exact Bool.and_eq_true_iff.mpr ⟨ih, rfl⟩
  | nextItem _ _ _ _ first others => exact Bool.and_eq_true_iff.mpr ⟨first, others⟩

/-- The entries of an object of JSON. -/
theorem holdDecoded_of_objectText {text : List Char} (spelled : ObjectText text entries) :
    holdDecoded entries = true :=
  Spells.isDecoded spelled

end Json

end ServiceDoc
