import ServiceDoc.Value.Same
import ServiceDoc.Yaml.Base64
import ServiceDoc.Yaml.Merge
import ServiceDoc.Yaml.Number

/-!
# Reading YAML

A document is read as a value. Every collection is marked by the number of its node, so that a
collection that is referred to stays one.

Scalars are read where they are met, and collections are made empty and filled later, in the order
in which they were met: of several faults the one that is met first in this order counts.
-/

namespace ServiceDoc.Yaml

/-- The words for truth values in small letters, with what they stand for. -/
def truthWords : List (String × Bool) := [
  ("yes", true), ("no", false), ("true", true), ("false", false), ("on", true), ("off", false)]

/-- The mark of the node of a number. -/
def markOf (number : Nat) : Mark := [0, number]

/-- The mark of what is no number, where its word is written: this is one thing everywhere. -/
def nanMark : Mark := [1]

/-- The date or time that a scalar writes. -/
def readMoment (mark : Mark) (text : List Char) : Except ReadError Scalar :=
  let line := if text.getLast? = some '\n' then text.dropLast else text
  match moment? line with
  | none => .error .notMoment
  | some ⟨date, _, none⟩ => if date.isValid then .ok (.date mark date) else .error .noSuchMoment
  | some ⟨date, _, some clock⟩ =>
    let time : Timestamp :=
      { date
        hour := clock.hour
        minute := clock.minute
        second := clock.second
        microsecond := clock.microsecond
        offset := clock.offset }
    if time.isValid then .ok (.timestamp mark time) else .error .noSuchMoment

/-- The bytes that a scalar writes. -/
def readBytes (codes : List Nat) : Except ReadError Scalar :=
  if codes.all (· < 128) then
    match Base64.decode? (codes.map Char.ofNat) with
    | some bytes => .ok (.bytes bytes)
    | none => .error .malformed
  else .error .malformed

/-- The value of the text of a scalar with a tag, under the mark of its node. -/
def readScalar (mark : Mark) (tag : Tag) (codes : List Nat) : Except ReadError Scalar :=
  let text := codes.map Char.ofNat
  match tag with
  | .null => .ok .null
  | .bool =>
    match truthWords.lookup (String.ofList (text.map Char.toLower)) with
    | some b => .ok (.bool b)
    | none => .error .notTruth
  | .int => .int <$> readInteger text
  | .float => .ofDouble (if isNanWord text then nanMark else mark) <$> readNumber text
  | .timestamp => readMoment mark text
  | .string => .ok (.ofCodes codes)
  | .binary => readBytes codes
  | _ => .error .malformed

/-- Whether a tag is that of a scalar. -/
def Tag.isScalar : Tag → Bool
  | .null | .bool | .int | .float | .timestamp | .string | .binary => true
  | _ => false

/-- Set the value of a key; a key that is the same stays as it is. -/
def putSame {α : Type} (entries : Entries α) (key : Scalar) (value : α) : Entries α :=
  match entries.find? fun entry => key.same entry.1 with
  | some (other, _) => entries.put other value
  | none => entries ++ [(key, value)]

/-- The members of a set in its order: natural numbers ascend, and other members stay in the order
in which they appear. -/
def inSetOrder (members : List Scalar) : List Scalar :=
  let numbers := members.filterMap fun
    | .int number => number.toNat?
    | _ => none
  if numbers.length = members.length then numbers.mergeSort.map fun number => .int number
  else members

/-- The text of a node with the tag of a scalar; that of a mapping is the text of its default value,
which can lead back to the mapping. -/
def Nodes.codes (nodes : Nodes) : (fuel : Nat) → Nat → Except ReadError (List Nat)
  | 0, _ => .error .endless
  | fuel + 1, number =>
    match nodes[number]?.map Node.content with
    | some (.scalar codes) => .ok codes
    | some (.mapping entries) =>
      match entries.find? fun entry => nodes.tagOf entry.1 = .value with
      | some (_, value) => nodes.codes fuel value
      | none => .error .malformed
    | _ => .error .malformed

/-! ## Making values -/

/-- What is made of a node. Parts are given by the numbers of their nodes. -/
inductive Piece where
  | scalar (value : Scalar)
  | sequence (items : List Nat)
  | pairs (items : List (Nat × Nat))
  | mapping (entries : Entries Nat)
  | set (members : List Scalar)

/-- How far the values of the nodes of a document have been made. -/
structure Making where
  nodes : Nodes
  /-- What was made of them, by their numbers. -/
  pieces : Array (Option Piece)
  /-- The collections that are still empty, the last first. -/
  later : List Nat := []

/-- A step of making values. -/
abbrev Maker := StateT Making (Except ReadError)

namespace Maker

/-- Keep what is made of a node. -/
def keep (number : Nat) (piece : Piece) : Maker Unit :=
  modify fun m => { m with pieces := m.pieces.setIfInBounds number (some piece) }

/-- What was made of a node. -/
def piece? (number : Nat) : Maker (Option Piece) := return (← get).pieces[number]?.join

/-- Make a collection of a node, which is filled later. -/
def promise (number : Nat) (empty : Piece) : Maker Unit := do
  keep number empty
  modify fun m => { m with later := number :: m.later }

/-- Make a scalar of a node. -/
def scalar (number : Nat) (node : Node) : Maker Unit := do
  let nodes := (← get).nodes
  let codes ← nodes.codes (nodes.size + 1) number
  match node.tag, node.content with
  | .timestamp, .mapping _ => throw .mappingAsMoment
  | _, _ => keep number (.scalar (← readScalar (markOf number) node.tag codes))

/-- Make what a node stands for, unless it was made before. -/
def make (number : Nat) : Maker Unit := do
  if (← piece? number).isSome then return
  match (← get).nodes[number]? with
  | none => throw .malformed
  | some node =>
    if node.tag.isScalar then scalar number node
    else match node.tag with
      | .sequence => promise number (.sequence [])
      | .orderedMap | .pairs => promise number (.pairs [])
      | .mapping => promise number (.mapping [])
      | .set => promise number (.set [])
      | _ => throw .malformed

/-- The pair that a mapping of one entry stands for. -/
def pair (number : Nat) : Maker (Nat × Nat) := do
  match (← get).nodes.entries? number with
  | some [(key, value)] =>
    make key
    make value
    return (key, value)
  | _ => throw .malformed

/-- Make the key and the value of an entry. Collections are no keys. -/
def entry (entry : Nat × Nat) : Maker (Scalar × Nat) := do
  make entry.1
  match ← piece? entry.1 with
  | some (.scalar key) =>
    make entry.2
    return (key, entry.2)
  | _ => throw .malformed

/-- Make the entries of a mapping, those that it takes over among them. -/
def entries (limit number : Nat) : Maker (Entries Nat) := do
  let nodes ← (← get).nodes.mergeFrom (limit + 1) [] number
  modify fun m => { m with nodes }
  let read ← ((nodes.entries? number).getD []).mapM entry
  return read.foldl (fun held (key, value) => putSame held key value) []

/-- Fill the collection of a node. -/
def fill (limit number : Nat) : Maker Unit := do
  match (← get).nodes[number]? with
  | some ⟨.sequence, .sequence items⟩ =>
    items.forM make
    keep number (.sequence items)
  | some ⟨.orderedMap, .sequence items⟩ | some ⟨.pairs, .sequence items⟩ =>
    keep number (.pairs (← items.mapM pair))
  | some ⟨.mapping, .mapping _⟩ => keep number (.mapping (← entries limit number))
  | some ⟨.set, .mapping _⟩ => keep number (.set (inSetOrder (← entries limit number).keys))
  | _ => throw .malformed

/-- Fill all collections, and those that are made meanwhile after them. -/
def fillAll (limit : Nat) : (rounds : Nat) → Maker Unit
  | 0 => return
  | rounds + 1 => do
    let waiting := (← get).later.reverse
    modify fun m => { m with later := [] }
    waiting.forM (fill limit)
    if !waiting.isEmpty then fillAll limit rounds

end Maker

/-- The value of a node inside some collections. -/
def Making.value (m : Making) : (fuel : Nat) → (enclosing : List Nat) → Nat → Value
  | 0, _, _ => .null
  | fuel + 1, enclosing, number =>
    let mark := markOf number
    let part := m.value fuel (number :: enclosing)
    let isAround := enclosing.contains number
    match m.pieces[number]?.join with
    | some (.scalar value) => .scalar value
    | some (.sequence items) =>
      if isAround then .enclosing .sequence mark else .array mark (items.map part)
    | some (.pairs items) =>
      if isAround then .enclosing .sequence mark
      else .array mark (items.zipIdx.map fun ((key, value), position) =>
        .pair (mark ++ [position]) (part key) (part value))
    | some (.mapping entries) =>
      if isAround then .enclosing .mapping mark
      else .object mark (entries.map fun (key, value) => (key, part value))
    | some (.set members) => .set mark members
    | none => .null

/-- The value of a document. A collection can be inside itself, but not twice between the top and a
place. -/
def Graph.value (graph : Graph) : Except ReadError Value := do
  let count := graph.nodes.size
  let start : Making := { nodes := graph.nodes, pieces := Array.replicate count none }
  let work : Maker Unit := do
    Maker.make graph.root
    Maker.fillAll graph.nodes.entryCount (count + 1)
  let (_, made) ← work.run start
  return made.value (count + 1) [] graph.root

/-- Read the document of a text. An empty text holds nothing. -/
def read (text : List Char) : Except ReadError Value := do
  (← Graph.ofTokens (tokensOf text)).value

end ServiceDoc.Yaml
