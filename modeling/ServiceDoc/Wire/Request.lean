import ServiceDoc.Generation
import ServiceDoc.Wire.Message

/-!
# Requests and responses as bytes

A request holds the names of the files to describe, a parameter, and the definition files. Its texts
need not be well formed; those that are not stand as their bytes are shown.
-/

namespace ServiceDoc.Wire

/-- Reading texts, with those that are raw. -/
abbrev Decoding := StateM RawTexts

/-- The text of bytes. -/
def text (bytes : List UInt8) : Decoding String := do
  match Text.decodeUtf8 bytes with
  | some characters => return String.ofList characters
  | none =>
    let shown := shownBytes bytes
    modify fun raw => (shown, bytes) :: raw
    return shown

/-- The last text of a field, empty if there is none. -/
def textAt (field : Nat) (fields : List WireField) : Decoding String :=
  match (bytesAt field fields).getLast? with
  | some bytes => text bytes
  | none => return ""

/-- The texts of a field. -/
def textsAt (field : Nat) (fields : List WireField) : Decoding (List String) :=
  (bytesAt field fields).mapM text

/-- The label of a number. -/
def label? (number : Nat) : Option FieldLabel :=
  if number = 1 then some .optional
  else if number = 2 then some .required
  else if number = 3 then some .repeated
  else none

/-- The last number of a field that means something. -/
def lastMeaning {α : Type} (meaning : Nat → Option α) (field : Nat) (fields : List WireField) :
    Option α :=
  ((numbersAt field fields).filterMap fun value => meaning (low value)).getLast?

/-- A field of a message. -/
def fieldDefinition (fields : List WireField) : Decoding FieldDefinition := do
  let options := messageAt 8 fields
  return {
    name := ← textAt 1 fields
    label := (lastMeaning label? 4 fields).getD .optional
    type := (lastMeaning FieldType.ofNumber? 5 fields).getD .double
    typeName := ← textAt 6 fields
    jsonName := ← textAt 10 fields
    deprecated := isSetAt 3 options
    behaviors := (numbersAt behaviorField options).map signed }

/-- A value of an enumeration. -/
def enumValueDefinition (fields : List WireField) : Decoding EnumValueDefinition := do
  return {
    name := ← textAt 1 fields
    number := ((numbersAt 2 fields).getLast?.map signed).getD 0 }

/-- An enumeration. -/
def enumDefinition (fields : List WireField) : Decoding EnumDefinition := do
  return {
    name := ← textAt 1 fields
    values := ← (messagesAt 2 fields).mapM enumValueDefinition }

/-- A message; messages inside of it are counted against a depth. -/
def messageDefinition : (depth : Nat) → List WireField → Decoding MessageDefinition
  | 0, _ => return {}
  | depth + 1, fields => do
    return {
      name := ← textAt 1 fields
      fields := ← (messagesAt 2 fields).mapM fieldDefinition
      messages := ← (messagesAt 3 fields).mapM (messageDefinition depth)
      enums := ← (messagesAt 4 fields).mapM enumDefinition
      isMapEntry := isSetAt 7 (messageAt 7 fields) }

/-- The verbs of a rule by their fields. -/
def ruleVerbs : List (Nat × String) := [
  (2, "get"), (3, "put"), (4, "post"), (5, "delete"), (6, "patch")]

/-- The pattern of a rule is the last one that is set. -/
def rulePattern (fields : List WireField) : Decoding RulePattern :=
  fields.foldlM (fun pattern field =>
    match field with
    | .bytes number content =>
      match ruleVerbs.lookup number with
      | some verb => do return .verb verb (← text content)
      | none => return pattern
    | .message number _ => return if number = 8 then .custom else pattern
    | .number _ _ => return pattern) .unset

/-- A binding. -/
def ruleDefinition (fields : List WireField) : Decoding RuleDefinition := do
  return { pattern := ← rulePattern fields, body := ← textAt 7 fields }

/-- A method. -/
def methodDefinition (fields : List WireField) : Decoding MethodDefinition := do
  let options := messageAt 4 fields
  let rule := messageAt ruleField options
  return {
    name := ← textAt 1 fields
    input := ← textAt 2 fields
    output := ← textAt 3 fields
    rules := ← if (messagesAt ruleField options).isEmpty then pure []
      else (rule :: messagesAt 11 rule).mapM ruleDefinition }

/-- A service. -/
def serviceDefinition (fields : List WireField) : Decoding ServiceDefinition := do
  return {
    name := ← textAt 1 fields
    defaultHost := ← textAt hostField (messageAt 3 fields)
    methods := ← (messagesAt 2 fields).mapM methodDefinition }

/-- The comments at a place. -/
def location (fields : List WireField) : Decoding Location := do
  return {
    path := (numbersAt 1 fields).map signed
    span := (numbersAt 2 fields).map signed
    leading := ← textAt 3 fields
    detached := ← textsAt 6 fields }

/-- A definition file. -/
def fileDefinition (fields : List WireField) : Decoding FileDefinition := do
  return {
    name := ← textAt 1 fields
    package := ← textAt 2 fields
    messages := ← (messagesAt 4 fields).mapM (messageDefinition maxDepth)
    enums := ← (messagesAt 5 fields).mapM enumDefinition
    services := ← (messagesAt 6 fields).mapM serviceDefinition
    locations := ← (messagesAt 1 (messageAt 9 fields)).mapM location }

/-- A request. -/
def request (fields : List WireField) : Decoding Request := do
  return {
    fileNames := ← textsAt 1 fields
    parameter := ← textAt 2 fields
    files := ← (messagesAt 15 fields).mapM fileDefinition }

/-- Read a request, if the bytes are one. -/
def readRequest? (bytes : List UInt8) : Option Request :=
  (message? .request bytes).map fun fields =>
    let (read, raw) := (request fields).run []
    { read with raw }

/-! ## Writing -/

/-- A field with bytes. -/
def sizedField (field : Nat) (content : List UInt8) : List UInt8 :=
  varint (field * 8 + 2) ++ varint content.length ++ content

/-- A field with a text. -/
def textField (field : Nat) (content : List Char) : List UInt8 :=
  sizedField field (Text.encodeUtf8 content)

/-- A field with a number. -/
def numberField (field value : Nat) : List UInt8 := varint (field * 8) ++ varint value

/-- A generated file. -/
def outputFile (file : OutputFile) : List UInt8 :=
  textField 1 file.name.toList ++ textField 15 (file.content.map Char.ofNat)

/-- What the program can do: it takes fields that say that they are optional. -/
def features : Nat := 1

/-- A response. -/
def response (response : Response) : List UInt8 :=
  (response.error.map fun text => textField 1 (text.map Char.ofNat)).getD [] ++ numberField 2 features ++
    response.files.flatMap fun file => sizedField 15 (outputFile file)

end ServiceDoc.Wire
