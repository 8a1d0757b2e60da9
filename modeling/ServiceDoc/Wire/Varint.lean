/-!
# Numbers of varying length

A number is written as bytes of seven bits each, the lowest first; every byte but the last has its
high bit set. Reading takes ten bytes at most and drops what does not fit into 64 bits.
-/

namespace ServiceDoc.Wire

/-- The bytes of a number. -/
def varint (n : Nat) : List UInt8 :=
  if n < 128 then [UInt8.ofNat n] else UInt8.ofNat (n % 128 + 128) :: varint (n / 128)
termination_by n
decreasing_by omega

/-- Read a number of a limited count of bytes; also gives the bytes behind it. -/
def readVarint? : (limit : Nat) → List UInt8 → Option (Nat × List UInt8)
  | 0, _ => none
  | _, [] => none
  | limit + 1, byte :: rest =>
    if byte.toNat < 128 then some (byte.toNat, rest)
    else (readVarint? limit rest).map fun (high, last) => (byte.toNat - 128 + 128 * high, last)

/-- The most bytes of a number. -/
def varintLength : Nat := 10

/-- Read a number of 64 bits. -/
def number? (bytes : List UInt8) : Option (Nat × List UInt8) :=
  (readVarint? varintLength bytes).map fun (n, rest) => (n % 18446744073709551616, rest)

/-- What was written is read back, and the bytes behind it are left. -/
theorem readVarint?_varint (limit n : Nat) (rest : List UInt8) (small : n < Nat.pow 128 (limit + 1)) :
    readVarint? (limit + 1) (varint n ++ rest) = some (n, rest) := by
  induction limit generalizing n with
  | zero =>
      have small' : n < 128 := by simpa using small
      have byte : (UInt8.ofNat n).toNat = n := by
        rw [UInt8.toNat_ofNat']
        omega
      rw [varint, if_pos small']
      simp [readVarint?, byte, small']
  | succ limit ih =>
      rw [varint]
      by_cases last : n < 128
      · have byte : (UInt8.ofNat n).toNat = n := by
          rw [UInt8.toNat_ofNat']
          omega
        rw [if_pos last]
        simp [readVarint?, byte, last]
      · have byte : (UInt8.ofNat (n % 128 + 128)).toNat = n % 128 + 128 := by
          rw [UInt8.toNat_ofNat']
          omega
        have smaller : n / 128 < Nat.pow 128 (limit + 1) := by
          rw [Nat.div_lt_iff_lt_mul (by decide)]
          exact small
        have large : ¬ (n % 128 + 128 < 128) := by omega
        rw [if_neg last, List.cons_append, readVarint?, byte, if_neg large, ih _ smaller]
        simp only [Option.map_some, Nat.add_sub_cancel, Nat.mod_add_div]

end ServiceDoc.Wire
