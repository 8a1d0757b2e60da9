import ServiceDoc.Text.Code

/-!
# Bytes in base 64

Three bytes are written as four letters, the last group filled up with equals signs. Writing breaks
lines after 76 letters; reading skips whatever is no letter.
-/

namespace ServiceDoc.Yaml.Base64

/-- The letters by their values. -/
def letters : List Char :=
  "ABCDEFGHIJKLMNOPQRSTUVWXYZabcdefghijklmnopqrstuvwxyz0123456789+/".toList

/-- The letter of a value below 64. -/
def letter (value : Nat) : Char := letters.getD value 'A'

/-- The value of a letter. -/
def value? (c : Char) : Option Nat := letters.idxOf? c

/-- Bytes as letters. -/
def encode : List UInt8 → List Char
  | a :: b :: c :: rest =>
    letter (a.toNat / 4) :: letter (a.toNat % 4 * 16 + b.toNat / 16) ::
      letter (b.toNat % 16 * 4 + c.toNat / 64) :: letter (c.toNat % 64) :: encode rest
  | [a, b] =>
    [letter (a.toNat / 4), letter (a.toNat % 4 * 16 + b.toNat / 16), letter (b.toNat % 16 * 4), '=']
  | [a] => [letter (a.toNat / 4), letter (a.toNat % 4 * 16), '=', '=']
  | [] => []

/-- The letters in a line. -/
def lineLength : Nat := 76

/-- Cut a text into lines, each with a line break after it. -/
def breakLines : (fuel : Nat) → List Char → List Char
  | 0, _ => []
  | fuel + 1, text =>
    if text.isEmpty then []
    else text.take lineLength ++ '\n' :: breakLines fuel (text.drop lineLength)

/-- Bytes as lines of letters. -/
def encodeLines (bytes : List UInt8) : List Char :=
  let text := encode bytes
  breakLines text.length text

/-- How far a group of four letters has been read. -/
structure Group where
  /-- How many letters of the group were read. -/
  position : Nat := 0
  /-- The bits that belong to the next byte. -/
  carry : Nat := 0
  /-- How many equals signs came since the last letter. -/
  signs : Nat := 0

/-- Read letters into bytes. An equals sign that completes a group ends the text; a group that stays
incomplete is an error. -/
def decodeFrom (group : Group) : List Char → Option (List UInt8)
  | [] => if group.position = 0 then some [] else none
  | c :: rest =>
    if c = '=' then
      if 2 ≤ group.position then
        if 4 ≤ group.position + group.signs + 1 then some []
        else decodeFrom { group with signs := group.signs + 1 } rest
      else decodeFrom group rest
    else match value? c with
      | none => decodeFrom group rest
      | some value =>
        match group.position with
        | 0 => decodeFrom ⟨1, value, 0⟩ rest
        | 1 => (decodeFrom ⟨2, value % 16, 0⟩ rest).map
            (UInt8.ofNat (group.carry * 4 + value / 16) :: ·)
        | 2 => (decodeFrom ⟨3, value % 4, 0⟩ rest).map
            (UInt8.ofNat (group.carry * 16 + value / 4) :: ·)
        | _ => (decodeFrom ⟨0, 0, 0⟩ rest).map
            (UInt8.ofNat (group.carry * 64 + value) :: ·)

/-- Read letters into bytes. -/
def decode? (text : List Char) : Option (List UInt8) := decodeFrom {} text

end ServiceDoc.Yaml.Base64
