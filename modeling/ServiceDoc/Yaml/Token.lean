import ServiceDoc.Text.Utf8
import ServiceDoc.Yaml.Cursor

/-!
# Tokens of a YAML text

Besides the tokens that are written there are those that indentation stands for: the start and the
end of a block, and the key before a value on one line.
-/

namespace ServiceDoc.Yaml

/-- A line that starts with a percent sign. -/
inductive Directive where
  | version (major minor : Nat)
  /-- What a handle in tags stands for. -/
  | handle (name meaning : List Char)
  | other
  deriving DecidableEq, Repr

/-- A tag as it is written: perhaps a handle, and the rest. -/
structure TagText where
  /-- The handle, unless the tag is written in full. -/
  handle : Option (List Char)
  /-- What follows the handle. -/
  rest : List Char
  deriving DecidableEq, Repr

/-- A token. -/
inductive Token where
  | directive (content : Directive)
  | documentStart
  | documentEnd
  /-- A sequence in block style starts. -/
  | blockSequenceStart
  /-- A mapping in block style starts. -/
  | blockMappingStart
  /-- A sequence or mapping in block style ends. -/
  | blockEnd
  /-- An opening square bracket. -/
  | sequenceStart
  /-- A closing square bracket. -/
  | sequenceEnd
  | mappingStart
  | mappingEnd
  | comma
  | item
  /-- The start of a key, which can be without a sign. -/
  | key
  | value
  /-- A reference to a named node. -/
  | alias (name : List Char)
  /-- The name of a node. -/
  | anchor (name : List Char)
  | tag (text : TagText)
  /-- The text of a scalar, written plain or otherwise. -/
  | scalar (isPlain : Bool) (codes : List Nat)
  deriving DecidableEq, Repr

namespace Cursor

/-- Read the name of an anchor or alias; the cursor stands on its sign. -/
def anchorName (c : Cursor) : Except ReadError (List Char × Cursor) :=
  let (name, last) := c.step.take isNameLetter
  let ends := atBlank last.rest || last.rest.head?.any fun ch =>
    ['?', ':', ',', ']', '\x7d', '%', '@', '\x60'].contains ch
  if name.isEmpty || !ends then .error .malformed else .ok (name, last)

/-- Whether a character can stand in a tag as it is. -/
def isTagLetter (c : Char) : Bool :=
  c.isAlphanum || "-;/?:@&=+$,_.!~*'()[]".toList.contains c

/-- Read bytes that are written as two hexadecimal digits after a percent sign. -/
def percentBytes : List Char → Option (List UInt8 × List Char)
  | '%' :: high :: low :: rest => do
    let byte ← Text.ofDigits? 16 [high, low]
    let (bytes, last) ← percentBytes rest
    return (UInt8.ofNat byte :: bytes, last)
  | '%' :: _ => none
  | rest => some ([], rest)

/-- Read the letters of a tag, bytes after percent signs among them. -/
def tagLetters : (fuel : Nat) → Cursor → Except ReadError (List Char × Cursor)
  | 0, c => .ok ([], c)
  | fuel + 1, c =>
    let (letters, afterLetters) := c.take isTagLetter
    if afterLetters.rest.head? = some '%' then
      match percentBytes afterLetters.rest with
      | none => .error .malformed
      | some (bytes, rest) =>
        match Text.decodeUtf8 bytes with
        | none => .error .malformed
        | some decoded => do
          let (others, last) ←
            tagLetters fuel (afterLetters.skip (afterLetters.rest.length - rest.length))
          return (letters ++ decoded ++ others, last)
    else .ok (letters, afterLetters)

/-- Read at least one letter of a tag. -/
def tagRest (c : Cursor) : Except ReadError (List Char × Cursor) := do
  let (letters, last) ← tagLetters c.rest.length c
  if last.index = c.index then .error .malformed else return (letters, last)

/-- Read a handle: an exclamation mark, or a name between two of them. -/
def tagHandle (c : Cursor) : Except ReadError (List Char × Cursor) :=
  match c.rest with
  | '!' :: ' ' :: _ => .ok (['!'], c.step)
  | '!' :: _ =>
    let (name, last) := c.step.take isNameLetter
    if last.rest.head? = some '!' then .ok ('!' :: name ++ ['!'], last.step)
    else .error .malformed
  | _ => .error .malformed

/-- Read a tag. -/
def tagText (c : Cursor) : Except ReadError (TagText × Cursor) := do
  let (text, last) ←
    if c.rest.take 2 = ['!', '<'] then do
      let (rest, last) ← (c.skip 2).tagRest
      if last.rest.head? ≠ some '>' then .error ReadError.malformed
      pure (⟨none, rest⟩, last.step)
    else if atBlank (c.rest.drop 1) then pure (⟨none, ['!']⟩, c.step)
    else if ((c.rest.drop 1).takeWhile fun ch => !atSpace [ch]).contains '!' then do
      let (handle, afterHandle) ← c.tagHandle
      let (rest, last) ← afterHandle.tagRest
      pure (TagText.mk (some handle) rest, last)
    else do
      let (rest, last) ← c.step.tagRest
      pure (TagText.mk (some ['!']) rest, last)
  if atSpace last.rest then return (text, last) else .error .malformed

/-- Read a number of a version. -/
def versionNumber (c : Cursor) : Except ReadError (Nat × Cursor) :=
  let (digits, last) := c.take Text.isDigit
  if digits.isEmpty then .error .malformed
  else if 4300 < digits.length then .error .notInteger
  else .ok (Text.ofDecimal digits, last)

/-- Read a directive with the rest of its line. -/
def directive (c : Cursor) : Except ReadError (Directive × Cursor) := do
  let (name, afterName) := c.step.take isNameLetter
  if name.isEmpty || !atSpace afterName.rest then .error ReadError.malformed
  let start := afterName.skipSpaces
  let (content, last) ←
    if name = "YAML".toList then do
      let (major, afterMajor) ← start.versionNumber
      if afterMajor.rest.head? ≠ some '.' then .error ReadError.malformed
      let (minor, last) ← afterMajor.step.versionNumber
      if !atSpace last.rest then .error ReadError.malformed
      pure (Directive.version major minor, last)
    else if name = "TAG".toList then do
      let (handle, afterHandle) ← start.tagHandle
      if afterHandle.rest.head? ≠ some ' ' then .error ReadError.malformed
      let (meaning, last) ← afterHandle.skipSpaces.tagRest
      if !atSpace last.rest then .error ReadError.malformed
      pure (Directive.handle handle meaning, last)
    else pure (Directive.other, afterName.skipWhile fun ch => !endsLine ch)
  return (content, ← last.finishLine)

end Cursor

end ServiceDoc.Yaml
