import ServiceDoc.Text.Code

/-!
# UTF-8

Characters as one to four bytes. Reading accepts the shortest form of every character and nothing
else.
-/

namespace ServiceDoc.Text

/-- The six bits of a byte that goes on with a character. -/
def continuation? (byte : UInt8) : Option Nat :=
  if 0x80 ≤ byte.toNat ∧ byte.toNat < 0xc0 then some (byte.toNat - 0x80) else none

/-- The character of a code point at least as large as the least of its length. -/
def characterFrom? (least code : Nat) : Option Char :=
  if least ≤ code ∧ isCharacter code then some (Char.ofNat code) else none

/-- The bytes of a character. -/
def utf8Bytes (c : Char) : List UInt8 :=
  let code := c.toNat
  let bytes :=
    if code < 0x80 then [code]
    else if code < 0x800 then [0xc0 + code / 0x40, 0x80 + code % 0x40]
    else if code < 0x10000 then
      [0xe0 + code / 0x1000, 0x80 + code / 0x40 % 0x40, 0x80 + code % 0x40]
    else
      [0xf0 + code / 0x40000, 0x80 + code / 0x1000 % 0x40, 0x80 + code / 0x40 % 0x40,
        0x80 + code % 0x40]
  bytes.map UInt8.ofNat

/-- The bytes of a text. -/
def encodeUtf8 (text : List Char) : List UInt8 := text.flatMap utf8Bytes

/-- The text of bytes, if they are well formed. -/
def decodeUtf8 : List UInt8 → Option (List Char)
  | [] => some []
  | first :: rest =>
    let lead := first.toNat
    if lead < 0x80 then (decodeUtf8 rest).map (Char.ofNat lead :: ·)
    else if 0xc0 ≤ lead ∧ lead < 0xe0 then
      match rest with
      | second :: rest => do
        let low ← continuation? second
        let c ← characterFrom? 0x80 ((lead - 0xc0) * 0x40 + low)
        return c :: (← decodeUtf8 rest)
      | _ => none
    else if 0xe0 ≤ lead ∧ lead < 0xf0 then
      match rest with
      | second :: third :: rest => do
        let middle ← continuation? second
        let low ← continuation? third
        let c ← characterFrom? 0x800 ((lead - 0xe0) * 0x1000 + middle * 0x40 + low)
        return c :: (← decodeUtf8 rest)
      | _ => none
    else if 0xf0 ≤ lead ∧ lead < 0xf8 then
      match rest with
      | second :: third :: fourth :: rest => do
        let high ← continuation? second
        let middle ← continuation? third
        let low ← continuation? fourth
        let c ← characterFrom? 0x10000
          ((lead - 0xf0) * 0x40000 + high * 0x1000 + middle * 0x40 + low)
        return c :: (← decodeUtf8 rest)
      | _ => none
    else none

end ServiceDoc.Text
