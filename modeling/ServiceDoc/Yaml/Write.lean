import ServiceDoc.Double.Shortest
import ServiceDoc.Value.Shown
import ServiceDoc.Yaml.Base64
import ServiceDoc.Yaml.Plain
import ServiceDoc.Yaml.Scalar

/-!
# Writing YAML

Mappings and sequences are written in block style, two columns a level; a sequence in a mapping is
not indented below its key. A container, a date or a time that is used more than once is named by an
anchor where it is first written and referred to by that name afterwards.
-/

namespace ServiceDoc.Yaml

/-- The marks met so far while looking for what is used more than once. -/
structure Usage where
  met : List Mark := []
  /-- Marks that were met again, the last first. -/
  repeated : List Mark := []

/-- Note that a thing is used again. -/
def Usage.again (usage : Usage) (mark : Mark) : Usage :=
  if usage.repeated.contains mark then usage
  else { usage with repeated := mark :: usage.repeated }

/-- Note that a thing is used. -/
def Usage.note (usage : Usage) (mark : Mark) : Usage :=
  if mark.isEmpty then usage
  else if usage.met.contains mark then usage.again mark
  else { usage with met := mark :: usage.met }

/-- Whether a thing was met before. -/
def Usage.knows (usage : Usage) (mark : Mark) : Bool :=
  !mark.isEmpty && usage.met.contains mark

mutual
/-- Look for what is used more than once. -/
def usageOf (usage : Usage) : Value → Usage
  | .scalar scalar => usage.note scalar.mark
  | .array mark items =>
    if usage.knows mark then usage.note mark else usageOfItems (usage.note mark) items
  | .pair mark first second =>
    if usage.knows mark then usage.note mark
    else usageOf (usageOf (usage.note mark) first) second
  | .object mark entries =>
    if usage.knows mark then usage.note mark else usageOfEntries (usage.note mark) entries
  | .set mark members =>
    if usage.knows mark then usage.note mark
    else members.foldl (fun usage member => usage.note member.mark) (usage.note mark)
  | .enclosing _ mark => usage.again mark

/-- Look among the items of a sequence. -/
def usageOfItems (usage : Usage) : List Value → Usage
  | [] => usage
  | item :: items => usageOfItems (usageOf usage item) items

/-- Look among the keys and the values of a mapping. -/
def usageOfEntries (usage : Usage) : List (Scalar × Value) → Usage
  | [] => usage
  | (key, value) :: entries => usageOfEntries (usageOf (usage.note key.mark) value) entries
end

/-- The marks of what is used more than once, in the order in which it is met again. -/
def repeatedMarks (value : Value) : List Mark := (usageOf {} value).repeated.reverse

/-- The name of the anchor of a number. -/
def anchorName (number : Nat) : List Nat := Text.codes ("id" ++ padded 3 number)

/-- A number as YAML spells it: a number with an exponent keeps a point. -/
def doubleText (d : Double) : String :=
  if d.isInfinite then (if d.isNegative then "-.inf" else ".inf")
  else
    let text := d.text.toList
    if text.contains '.' || !text.contains 'e' then String.ofList text
    else
      let (mantissa, exponent) := Text.cutOnce 'e' text
      String.ofList (mantissa ++ '.' :: '0' :: 'e' :: exponent)

/-- The text and the tag of a scalar. -/
def scalarText : Scalar → List Nat × Tag
  | .null => (Text.codes "null", .null)
  | .bool b => (Text.codes (if b then "true" else "false"), .bool)
  | .int n => (Text.codes (toString n), .int)
  | .double d => (Text.codes (doubleText d), .float)
  | .nan _ => (Text.codes ".nan", .float)
  | .string s => (Text.codes s, .string)
  | .surrogates codes => (codes, .string)
  | .date _ d => (Text.codes d.text, .timestamp)
  | .timestamp _ t => (Text.codes t.text, .timestamp)
  | .bytes bytes => ((Base64.encodeLines bytes).map Char.toNat, .binary)

/-- How a tag is written. -/
def Tag.short : Tag → String
  | .null => "!!null"
  | .bool => "!!bool"
  | .int => "!!int"
  | .float => "!!float"
  | .timestamp => "!!timestamp"
  | .binary => "!!binary"
  | .set => "!!set"
  | _ => "!!str"

/-- Whether a plain scalar of these code points is read back with a tag. -/
def readsBack (codes : List Nat) (tag : Tag) : Bool :=
  match Text.ofCodes? codes with
  | some text => plainTag text.toList == tag
  | none => false

/-- Write a scalar; lines after the first start at a column. -/
def Pen.scalar (pen : Pen) (column : Nat) (isSimpleKey : Bool) (scalar : Scalar) : Pen :=
  let (codes, tag) := scalarText scalar
  if tag = .binary then
    let style := if codes.isEmpty || isSimpleKey then Style.double else .literal
    (pen.indicator (Text.codes tag.short)).styled style column (!isSimpleKey) codes
  else
    pen.styled (styleOf isSimpleKey (readsBack codes tag) codes) column (!isSimpleKey) codes

/-- The length from which on a key is not simple, its tag counted. -/
def longKey : Nat := 128

/-- Whether a key is written on one line before its colon. -/
def isSimpleKey (key : Scalar) : Bool :=
  let (codes, tag) := scalarText key
  !codes.isEmpty && !isMultiline codes && tag.short.length + codes.length < longKey

/-- What has been written, and the things that were named. -/
structure Draft where
  pen : Pen := {}
  /-- The marks of the things that have their anchors. -/
  named : List Mark := []

namespace Draft

/-- Move the pen. -/
def draw (draft : Draft) (move : Pen → Pen) : Draft := { draft with pen := move draft.pen }

/-- The column of what stands inside a column. -/
def inside : Option Nat → Nat
  | none => 0
  | some column => column + 2

/-- The column of further lines of a scalar inside a column. -/
def insideScalar (column : Option Nat) : Nat := column.getD 0 + 2

/-- Name a thing, or refer to it if it has its anchor; says whether it is still to be written. -/
def introduce (marks : List Mark) (mark : Mark) (draft : Draft) : Draft × Bool :=
  if !marks.contains mark then (draft, true)
  else
    let name := anchorName (marks.idxOf mark + 1)
    if draft.named.contains mark then (draft.draw (·.indicator (42 :: name)), false)
    else
      let anchored := draft.draw (·.indicator (38 :: name))
      ({ anchored with named := mark :: anchored.named }, true)

/-- Write a scalar or refer to it; lines after the first start at a column. -/
def scalar (marks : List Mark) (column : Nat) (isSimpleKey : Bool) (scalar : Scalar)
    (draft : Draft) : Draft :=
  let (introduced, isNew) := draft.introduce marks scalar.mark
  if isNew then introduced.draw (·.scalar column isSimpleKey scalar) else introduced

/-- Write the key of an entry at a column and the colon behind it. -/
def key (marks : List Mark) (column : Nat) (key : Scalar) (draft : Draft) : Draft :=
  let inner := insideScalar (some column)
  let started := draft.draw (·.indent column)
  if isSimpleKey key then (started.scalar marks inner true key).draw (·.sign [58])
  else
    ((started.draw (·.entryIndicator [63])).scalar marks inner false key).draw fun pen =>
      (pen.indent column).entryIndicator [58]

/-- Write the members of a set at a column. -/
def members (marks : List Mark) (column : Nat) (members : List Scalar) (draft : Draft) : Draft :=
  members.foldl (fun draft member =>
    (draft.key marks column member).draw (·.scalar (insideScalar (some column)) false .null)) draft

mutual
/-- Write a value inside a column, as the value of an entry of a mapping or not. -/
def value (marks : List Mark) (column : Option Nat) (isEntryValue : Bool) (draft : Draft) :
    Value → Draft
  | .scalar scalar => draft.scalar marks (insideScalar column) false scalar
  | .array mark items =>
    let (introduced, isNew) := draft.introduce marks mark
    if !isNew then introduced
    else if items.isEmpty then introduced.draw (·.indicator [91, 93])
    else
      let level :=
        if isEntryValue && !introduced.pen.isFresh then column.getD 0 else inside column
      introduced.items marks level items
  | .pair mark first second =>
    let (introduced, isNew) := draft.introduce marks mark
    if !isNew then introduced
    else
      let level :=
        if isEntryValue && !introduced.pen.isFresh then column.getD 0 else inside column
      let started := introduced.draw fun pen => (pen.indent level).entryIndicator [45]
      let divided := (value marks (some level) false started first).draw fun pen =>
        (pen.indent level).entryIndicator [45]
      value marks (some level) false divided second
  | .object mark entries =>
    let (introduced, isNew) := draft.introduce marks mark
    if !isNew then introduced
    else if entries.isEmpty then introduced.draw (·.indicator [123, 125])
    else introduced.entries marks (inside column) entries
  | .set mark scalars =>
    let (introduced, isNew) := draft.introduce marks mark
    if !isNew then introduced
    else
      let tagged := introduced.draw (·.indicator (Text.codes Tag.set.short))
      if scalars.isEmpty then tagged.draw (·.indicator [123, 125])
      else tagged.members marks (inside column) scalars
  | .enclosing _ mark => (draft.introduce marks mark).1

/-- Write the items of a sequence at a column. -/
def items (marks : List Mark) (column : Nat) (draft : Draft) : List Value → Draft
  | [] => draft
  | item :: rest =>
    let started := draft.draw fun pen => (pen.indent column).entryIndicator [45]
    (value marks (some column) false started item).items marks column rest

/-- Write the entries of a mapping at a column. -/
def entries (marks : List Mark) (column : Nat) (draft : Draft) : List (Scalar × Value) → Draft
  | [] => draft
  | (name, held) :: rest =>
    (value marks (some column) true (draft.key marks column name) held).entries marks column rest
end

end Draft

/-- The text of a value. -/
def text (value : Value) : List Nat :=
  let draft := Draft.value (repeatedMarks value) none false {} value
  (draft.pen.indent 0).text

/-- The most containers inside of each other that can be written. -/
def maxDepth : Nat := 330

/-- Write a value, unless it is too deep or holds an integer that is too long. -/
def write (value : Value) : Except WriteError (List Nat) :=
  if maxDepth < value.depth then .error .tooDeep
  else if value.holdsLong then .error .longInteger
  else .ok (text value)

end ServiceDoc.Yaml
