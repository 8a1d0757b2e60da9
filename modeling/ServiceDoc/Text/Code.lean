/-!
# Code points

Escapes can write surrogates one by one, so a text that is still being read or written is a list of
code points; it is a string when every one of them is a character.
-/

namespace ServiceDoc.Text

/-- Whether a code point is a character, that is, in range and no surrogate. -/
def isCharacter (code : Nat) : Bool :=
  code < 0xd800 || (0xdfff < code && code < 0x110000)

/-- The code points of a string. -/
def codes (text : String) : List Nat :=
  text.toList.map Char.toNat

/-- The string with the given code points, if all of them are characters. -/
def ofCodes? (codes : List Nat) : Option String :=
  if codes.all isCharacter then some (String.ofList (codes.map Char.ofNat)) else none

/-- Whether a code unit is the first half of a pair. -/
def isHighSurrogate (code : Nat) : Bool := 0xd800 ≤ code && code < 0xdc00

/-- Whether a code unit is the second half of a pair. -/
def isLowSurrogate (code : Nat) : Bool := 0xdc00 ≤ code && code < 0xe000

/-- The code point of a surrogate pair. -/
def joinPair (high low : Nat) : Nat := 0x10000 + (high - 0xd800) * 0x400 + (low - 0xdc00)

/-- The value of a hexadecimal digit. -/
def hexValue? (c : Char) : Option Nat :=
  if '0' ≤ c && c ≤ '9' then some (c.toNat - 48)
  else if 'a' ≤ c && c ≤ 'f' then some (c.toNat - 87)
  else if 'A' ≤ c && c ≤ 'F' then some (c.toNat - 55)
  else none

/-- The number written by digits of a base, if every character is such a digit. -/
def ofDigits? (base : Nat) (digits : List Char) : Option Nat :=
  digits.foldlM (fun n c => do
    let digit ← hexValue? c
    if digit < base then some (n * base + digit) else none) 0

/-- The lower case hexadecimal digits of a number, padded with zeros. -/
def hex (width n : Nat) : List Char :=
  let digits := Nat.toDigits 16 n
  List.replicate (width - digits.length) '0' ++ digits

/-- The digits of bytes, two for each. -/
def hexOfBytes (bytes : List UInt8) : List Char := bytes.flatMap fun byte => hex 2 byte.toNat

/-- The bytes that digits write, two for each; what is no digit counts as zero. -/
def bytesOfHex : List Char → List UInt8
  | high :: low :: rest => UInt8.ofNat ((ofDigits? 16 [high, low]).getD 0) :: bytesOfHex rest
  | _ => []

/-- The number written by decimal digits; other characters count as zero. -/
def ofDecimal (digits : List Char) : Nat :=
  digits.foldl (fun n c => n * 10 + (c.toNat - 48)) 0

/-- An ASCII decimal digit. -/
def isDigit (c : Char) : Bool := '0' ≤ c && c ≤ '9'

end ServiceDoc.Text
