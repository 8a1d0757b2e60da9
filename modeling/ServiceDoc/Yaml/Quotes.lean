import ServiceDoc.Yaml.Cursor

/-!
# Reading texts between quotes

Lines are folded. Between double quotes a backslash starts an escape; between single quotes a
doubled quote stands for one.

Every step but the last reads a character, so that a bound on what is still to be read bounds the
steps.
-/

namespace ServiceDoc.Yaml

/-- Letters that stand for code points after a backslash. -/
def escapeLetters : List (Char × Nat) := [
  ('0', 0), ('a', 7), ('b', 8), ('t', 9), ('\t', 9), ('n', 10), ('v', 11), ('f', 12), ('r', 13),
  ('e', 27), (' ', 32), ('"', 34), ('\\', 92), ('/', 47), ('N', 0x85), ('_', 0xa0), ('L', 0x2028),
  ('P', 0x2029)]

/-- Letters after which a code point follows in hexadecimal digits, and how many. -/
def escapeLengths : List (Char × Nat) := [('x', 2), ('u', 4), ('U', 8)]

namespace Cursor

/-- Read empty lines inside quotes; the cursor stands at the start of a line, and is left at the
first character on a line that is no blank. -/
def emptyLines : (fuel : Nat) → Cursor → Except ReadError (List Nat × Cursor)
  | 0, c => .ok ([], c)
  | fuel + 1, c =>
    if atDocumentMark c.rest then .error .malformed
    else
      let inner := c.skipBlanks
      match inner.takeBreak with
      | (none, _) => .ok ([], inner)
      | (some code, next) => do
        let (codes, last) ← emptyLines fuel next
        return (code :: codes, last)

/-- Read blanks inside quotes, with the end of the line if they are its last. -/
def innerBlanks (fuel : Nat) (c : Cursor) : Except ReadError (List Nat × Cursor) :=
  let (blanks, next) := c.take fun ch => ch == ' ' || ch == '\t'
  match next.takeBreak with
  | (none, _) => .ok (blanks.map Char.toNat, next)
  | (some code, start) => do
    let (others, last) ← emptyLines fuel start
    return (folded code others, last)

/-- Read an escape; the cursor stands behind the backslash. -/
def escape (fuel : Nat) (c : Cursor) : Except ReadError (List Nat × Cursor) :=
  match c.rest with
  | [] => .error .malformed
  | letter :: rest =>
    match escapeLetters.lookup letter, escapeLengths.lookup letter with
    | some code, _ => .ok ([code], c.step)
    | none, some length =>
      let digits := rest.take length
      match if digits.length = length then Text.ofDigits? 16 digits else none with
      | none => .error .malformed
      | some code =>
        if 0x10ffff < code then .error (.noCharacter code) else .ok ([code], c.skip (length + 1))
    | none, none =>
      match c.takeBreak with
      | (none, _) => .error .malformed
      | (some _, start) => emptyLines fuel start

/-- Read a text up to the closing quote; the cursor stands behind the opening one. -/
def quotedInside (quote : Char) : (fuel : Nat) → Cursor → Except ReadError (List Nat × Cursor)
  | 0, _ => .error .malformed
  | fuel + 1, c =>
    match c.rest with
    | [] => .error .malformed
    | first :: rest =>
      if first = quote then
        if quote = '\'' ∧ rest.head? = some '\'' then do
          let (codes, last) ← quotedInside quote fuel (c.skip 2)
          return (39 :: codes, last)
        else .ok ([], c.step)
      else if first = '\\' ∧ quote = '"' then do
        let (codes, next) ← c.step.escape fuel
        let (others, last) ← quotedInside quote fuel next
        return (codes ++ others, last)
      else if atBlank [first] then do
        let (codes, next) ← c.innerBlanks fuel
        let (others, last) ← quotedInside quote fuel next
        return (codes ++ others, last)
      else do
        let (codes, last) ← quotedInside quote fuel c.step
        return (first.toNat :: codes, last)

/-- Read a text between quotes; the cursor stands on the opening one. -/
def quoted (fuel : Nat) (c : Cursor) : Except ReadError (List Nat × Cursor) :=
  match c.rest with
  | [] => .error .malformed
  | quote :: _ => quotedInside quote fuel c.step

end Cursor

end ServiceDoc.Yaml
