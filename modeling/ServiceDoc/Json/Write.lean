import ServiceDoc.Double.Shortest
import ServiceDoc.Text.Code
import ServiceDoc.Text.Quoted
import ServiceDoc.Value.Shown

/-!
# Writing JSON

A value is written on one line or indented by two spaces a level. Only the quote, the backslash and
control characters are escaped, so the result is a list of code points: a lone surrogate stays.
-/

namespace ServiceDoc.Json

/-- How containers are laid out. -/
inductive Layout where
  | line
  /-- One item a line, two spaces a level. -/
  | indented
  deriving DecidableEq, Repr

/-- A code point inside a string. -/
def escaped (code : Nat) : List Nat :=
  if code = 34 then [92, 34]
  else if code = 92 then [92, 92]
  else if code = 10 then [92, 110]
  else if code = 13 then [92, 114]
  else if code = 9 then [92, 116]
  else if code = 8 then [92, 98]
  else if code = 12 then [92, 102]
  else if code < 32 then 92 :: 117 :: (Text.hex 4 code).map Char.toNat
  else [code]

/-- Code points between quotes. -/
def writeText (codes : List Nat) : List Nat :=
  34 :: (codes.flatMap escaped ++ [34])

/-- The number as JSON spells it. -/
def doubleText (d : Double) : String :=
  if d.isInfinite then (if d.isNegative then "-Infinity" else "Infinity")
  else d.text

/-- A scalar value. -/
def writeScalar : Scalar → Except WriteError (List Nat)
  | .null => .ok (Text.codes "null")
  | .bool b => .ok (Text.codes (if b then "true" else "false"))
  | .int n => if isLongInteger n then .error .longInteger else .ok (Text.codes (toString n))
  | .double d => .ok (Text.codes (doubleText d))
  | .nan _ => .ok (Text.codes "NaN")
  | .string s => .ok (writeText (Text.codes s))
  | .surrogates codes => .ok (writeText codes)
  | _ => .error .foreign

/-- A key, which is always written as a string. -/
def writeKey : Scalar → Except WriteError (List Nat)
  | .string s => .ok (writeText (Text.codes s))
  | .surrogates codes => .ok (writeText codes)
  | key => do
    let text ← writeScalar key
    return 34 :: (text ++ [34])

/-- What comes before an item at a depth, after the bracket or comma. -/
def lineBreak (layout : Layout) (depth : Nat) : List Nat :=
  match layout with
  | .line => []
  | .indented => 10 :: List.replicate (2 * depth) 32

/-- What separates two items. -/
def separator (layout : Layout) (depth : Nat) : List Nat :=
  match layout with
  | .line => [44, 32]
  | .indented => 44 :: lineBreak layout depth

mutual
/-- A value inside containers of a depth. -/
def write (layout : Layout) (depth : Nat) : Value → Except WriteError (List Nat)
  | .scalar value => writeScalar value
  | .array _ [] => .ok [91, 93]
  | .array _ (item :: items) => do
    let first ← write layout (depth + 1) item
    let others ← writeItems layout (depth + 1) items
    return 91 :: (lineBreak layout (depth + 1) ++ first ++ others ++ lineBreak layout depth ++ [93])
  | .pair _ first second => do
    let first ← write layout (depth + 1) first
    let second ← write layout (depth + 1) second
    return 91 :: (lineBreak layout (depth + 1) ++ first ++ separator layout (depth + 1) ++ second ++
      lineBreak layout depth ++ [93])
  | .object _ [] => .ok [123, 125]
  | .object _ ((key, value) :: entries) => do
    let name ← writeKey key
    let first ← write layout (depth + 1) value
    let others ← writeEntries layout (depth + 1) entries
    return 123 :: (lineBreak layout (depth + 1) ++ name ++ [58, 32] ++ first ++ others ++
      lineBreak layout depth ++ [125])
  | .set _ _ => .error .foreign
  | .enclosing _ _ => .error .circular

/-- The items after the first. -/
def writeItems (layout : Layout) (depth : Nat) : List Value → Except WriteError (List Nat)
  | [] => .ok []
  | item :: items => do
    let first ← write layout depth item
    let others ← writeItems layout depth items
    return separator layout depth ++ first ++ others

/-- The entries after the first. -/
def writeEntries (layout : Layout) (depth : Nat) : Entries Value → Except WriteError (List Nat)
  | [] => .ok []
  | (key, value) :: entries => do
    let name ← writeKey key
    let first ← write layout depth value
    let others ← writeEntries layout depth entries
    return separator layout depth ++ name ++ [58, 32] ++ first ++ others
end

/-- The value on one line. -/
def line (value : Value) : Except WriteError (List Nat) := write .line 0 value

/-- A code point of a text in ASCII: beyond ASCII it is escaped, as a pair of surrogates if it needs
one. -/
def asciiCode (code : Nat) : List Nat :=
  let escape (unit : Nat) : List Nat := 92 :: 117 :: (Text.hex 4 unit).map Char.toNat
  if code < 128 then [code]
  else if code < 0x10000 then escape code
  else escape (0xd800 + (code - 0x10000) / 0x400) ++ escape (0xdc00 + (code - 0x10000) % 0x400)

/-- The value on one line in ASCII. -/
def asciiLine (value : Value) : Except WriteError String := do
  return String.ofList (((← line value).flatMap asciiCode).map Char.ofNat)

/-- The value indented, with a line feed at the end. -/
def document (value : Value) : Except WriteError (List Nat) := do
  return (← write .indented 0 value) ++ [10]

end ServiceDoc.Json
