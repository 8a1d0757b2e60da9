import ServiceDoc.Text.Utf8
import ServiceDoc.Wire.Varint

/-!
# Messages as bytes

A message is a sequence of fields, each a number that says which field it is and how long its
content is. Fields that a kind of message does not know, and fields whose content has another form,
are left out; but they have to be well formed.
-/

namespace ServiceDoc.Wire

/-- The kinds of messages in a request. -/
inductive MessageKind where
  | request
  | file
  | message
  | field
  | enumeration
  /-- The definition of a value of an enumeration. -/
  | enumValue
  | service
  | method
  /-- The definition of a choice of fields. -/
  | choice
  /-- A range of numbers for further fields. -/
  | range
  /-- The options of such a range. -/
  | rangeOptions
  | comments
  /-- The comments at a place. -/
  | location
  | fileOptions
  | messageOptions
  | fieldOptions
  | choiceOptions
  | enumOptions
  /-- The options of a value of an enumeration. -/
  | enumValueOptions
  | serviceOptions
  | methodOptions
  /-- The binding of a method to HTTP. -/
  | rule
  /-- A verb of one's own with its path. -/
  | customPattern
  /-- An option that was not understood. -/
  | rawOption
  /-- A message of which no field matters. -/
  | plain
  deriving DecidableEq, Repr

/-- What a field holds. -/
inductive FieldShape where
  | number
  /-- Any count of numbers, one by one or together. -/
  | numbers
  | bytes
  /-- Bytes that have to be text. -/
  | text
  | message (kind : MessageKind)
  deriving DecidableEq, Repr

/-- The field of options that were not understood. -/
def rawOptions : Nat × FieldShape := (999, .message .rawOption)

/-- The number of the field that binds a method to HTTP. -/
def ruleField : Nat := 72295728

/-- The number of the field with the host of a service. -/
def hostField : Nat := 1049

/-- The number of the field with the behaviours of a field. -/
def behaviorField : Nat := 1052

/-- The fields of a kind by their numbers. -/
def MessageKind.fields : MessageKind → List (Nat × FieldShape)
  | .request => [
    (1, .bytes), (2, .bytes), (3, .message .plain), (15, .message .file), (17, .message .file)]
  | .file => [
    (1, .bytes), (2, .bytes), (4, .message .message), (5, .message .enumeration),
    (6, .message .service), (7, .message .field), (8, .message .fileOptions),
    (9, .message .comments), (10, .numbers), (11, .numbers)]
  | .message => [
    (1, .bytes), (2, .message .field), (3, .message .message), (4, .message .enumeration),
    (5, .message .range), (6, .message .field), (7, .message .messageOptions),
    (8, .message .choice), (9, .message .plain)]
  | .field => [
    (1, .bytes), (4, .number), (5, .number), (6, .bytes), (8, .message .fieldOptions),
    (10, .bytes)]
  | .enumeration => [
    (1, .bytes), (2, .message .enumValue), (3, .message .enumOptions), (4, .message .plain)]
  | .enumValue => [(1, .bytes), (2, .number), (3, .message .enumValueOptions)]
  | .service => [(1, .bytes), (2, .message .method), (3, .message .serviceOptions)]
  | .method => [(1, .bytes), (2, .bytes), (3, .bytes), (4, .message .methodOptions)]
  | .choice => [(2, .message .choiceOptions)]
  | .range => [(3, .message .rangeOptions)]
  | .rangeOptions => [(2, .message .plain), (50, .message .plain), rawOptions]
  | .comments => [(1, .message .location)]
  | .location => [(1, .numbers), (2, .numbers), (3, .bytes), (6, .bytes)]
  | .fileOptions => [(50, .message .plain), rawOptions]
  | .messageOptions => [(7, .number), (12, .message .plain), rawOptions]
  | .fieldOptions => [
    (3, .number), (19, .numbers), (20, .message .plain), (21, .message .plain),
    (22, .message .plain), rawOptions, (behaviorField, .numbers)]
  | .choiceOptions => [(1, .message .plain), rawOptions]
  | .enumOptions => [(7, .message .plain), rawOptions]
  | .enumValueOptions => [(2, .message .plain), (4, .message .plain), rawOptions]
  | .serviceOptions => [
    (34, .message .plain), rawOptions, (hostField, .text), (1050, .text), (525000001, .text)]
  | .methodOptions => [
    (35, .message .plain), rawOptions, (1051, .text), (ruleField, .message .rule)]
  | .rule => [
    (1, .text), (2, .text), (3, .text), (4, .text), (5, .text), (6, .text), (7, .text),
    (8, .message .customPattern), (11, .message .rule), (12, .text)]
  | .customPattern => [(1, .text), (2, .text)]
  | .rawOption => [(2, .message .plain)]
  | .plain => []

/-- A field as it was read. -/
inductive WireField where
  | number (field value : Nat)
  | bytes (field : Nat) (content : List UInt8)
  | message (field : Nat) (fields : List WireField)
  deriving Inhabited

/-- How the content of a field is written. -/
inductive Form where
  /-- A number of varying length. -/
  | varint
  | eight
  /-- A length and as many bytes. -/
  | sized
  /-- Fields up to the end of a group. -/
  | groupStart
  | groupEnd
  | four
  deriving DecidableEq, Repr

/-- The forms by their numbers. -/
def Form.ofNumber? (number : Nat) : Option Form :=
  [Form.varint, .eight, .sized, .groupStart, .groupEnd, .four][number]?

/-- The most bytes of a number that says which field comes, or how long it is. -/
def shortLength : Nat := 5

/-- Read which field comes and its form: a number of five bytes and 32 bits at most. -/
def fieldHead? (bytes : List UInt8) : Option (Nat × Form × List UInt8) := do
  let (head, rest) ← readVarint? shortLength bytes
  let form ← Form.ofNumber? (head % 8)
  if 4294967296 ≤ head then none else some (head / 8, form, rest)

/-- Read a count of bytes. -/
def take? (count : Nat) (bytes : List UInt8) : Option (List UInt8 × List UInt8) :=
  if count ≤ bytes.length then some (bytes.take count, bytes.drop count) else none

/-- Read bytes with their length before them: a number of five bytes at most. -/
def sized? (bytes : List UInt8) : Option (List UInt8 × List UInt8) := do
  let (size, rest) ← readVarint? shortLength bytes
  take? size rest

/-- Step over the fields of a group and its end, which has to come before the end of what is around
the group. Fields of a group can have the number zero. Groups inside of it are counted against a
depth. -/
def afterGroup? (field : Nat) : (fuel depth : Nat) → List UInt8 → Option (List UInt8)
  | 0, _, _ => none
  | fuel + 1, depth, bytes => do
    let (inner, form, rest) ← fieldHead? bytes
    match form with
    | .varint => afterGroup? field fuel depth (← number? rest).2
    | .eight => afterGroup? field fuel depth (← take? 8 rest).2
    | .four => afterGroup? field fuel depth (← take? 4 rest).2
    | .sized => afterGroup? field fuel depth (← sized? rest).2
    | .groupEnd => if inner = field then some rest else none
    | .groupStart =>
      if depth ≤ 1 then none
      else afterGroup? field fuel depth (← afterGroup? inner fuel (depth - 1) rest)

/-- Numbers one after the other. -/
def numbers? : (fuel : Nat) → List UInt8 → Option (List Nat)
  | _, [] => some []
  | 0, _ => none
  | fuel + 1, bytes => do
    let (value, rest) ← number? bytes
    return value :: (← numbers? fuel rest)

/-- Read the fields of a message. Every field reads a byte, which bounds their number; messages
inside of messages are counted against a depth. -/
def fields? (kind : MessageKind) : (fuel depth : Nat) → List UInt8 → Option (List WireField)
  | _, _, [] => some []
  | 0, _, _ => none
  | fuel + 1, depth, bytes => do
    let (field, form, rest) ← fieldHead? bytes
    if field = 0 then none
    let shape := kind.fields.lookup field
    match form with
    | .varint =>
      let (value, last) ← number? rest
      let others ← fields? kind fuel depth last
      return if shape = some .number ∨ shape = some .numbers then .number field value :: others
        else others
    | .sized =>
      let (content, last) ← sized? rest
      let here : Option (List WireField) :=
        match shape with
        | some .bytes => some [.bytes field content]
        | some .text => (Text.decodeUtf8 content).map fun _ => [.bytes field content]
        | some .numbers =>
          (numbers? content.length content).map fun values => values.map (.number field)
        | some (.message inner) =>
          if depth = 0 then none
          else (fields? inner fuel (depth - 1) content).map fun fields => [.message field fields]
        | _ => some []
      return (← here) ++ (← fields? kind fuel depth last)
    | .groupStart =>
      if depth ≤ 1 then none
      else fields? kind fuel depth (← afterGroup? field fuel (depth - 1) rest)
    | .eight => fields? kind fuel depth (← take? 8 rest).2
    | .four => fields? kind fuel depth (← take? 4 rest).2
    | .groupEnd => none

/-- How deep messages can stand inside of messages. -/
def maxDepth : Nat := 100

/-- Read a message of a kind. -/
def message? (kind : MessageKind) (bytes : List UInt8) : Option (List WireField) :=
  fields? kind bytes.length maxDepth bytes

/-! ## The content of fields -/

/-- The numbers of a field. -/
def numbersAt (field : Nat) (fields : List WireField) : List Nat :=
  fields.filterMap fun
    | .number other value => if other = field then some value else none
    | _ => none

/-- The bytes of a field, once for each time that it occurs. -/
def bytesAt (field : Nat) (fields : List WireField) : List (List UInt8) :=
  fields.filterMap fun
    | .bytes other content => if other = field then some content else none
    | _ => none

/-- The messages of a field. -/
def messagesAt (field : Nat) (fields : List WireField) : List (List WireField) :=
  fields.filterMap fun
    | .message other inner => if other = field then some inner else none
    | _ => none

/-- The fields of the one message of a field; if it occurs several times, its parts are put
together. -/
def messageAt (field : Nat) (fields : List WireField) : List WireField :=
  (messagesAt field fields).flatten

/-- The last number of a field counts. -/
def isSetAt (field : Nat) (fields : List WireField) : Bool :=
  (numbersAt field fields).getLast?.any (· ≠ 0)

/-- A number as a signed integer of 32 bits. -/
def signed (value : Nat) : Int := Int.bmod value 4294967296

/-- A number as an unsigned integer of 32 bits. -/
def low (value : Nat) : Nat := value % 4294967296

end ServiceDoc.Wire
