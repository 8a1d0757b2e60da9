import ServiceDoc.Registry.Index
import ServiceDoc.Schema.Name
import ServiceDoc.Schema.WellKnown
import ServiceDoc.Workspace

/-!
# Schemas of fields

The schema of a field follows from its type. A message is a reference to a component schema, which
is noted in the workspace, or the schema of a well-known type; maps and lists hold the schema of
their values.
-/

namespace ServiceDoc

/-- What the schema of a field of a type is made of. -/
inductive TypeClass where
  | message
  /-- A text, or an integer that is too large for JSON numbers. -/
  | text
  | integer
  | enum
  | boolean
  | number
  | bytes
  /-- A type without a schema. -/
  | unsupported
  deriving DecidableEq, Repr

/-- What the schema of a field of a type is made of. -/
def FieldType.schemaClass : FieldType → TypeClass
  | .message => .message
  | .string | .int64 | .sint64 | .uint64 | .sfixed64 | .fixed64 => .text
  | .int32 | .sint32 | .uint32 | .sfixed32 | .fixed32 => .integer
  | .enum => .enum
  | .bool => .boolean
  | .double | .float => .number
  | .bytes => .bytes
  | .group => .unsupported

/-- The lines that describe the values of an enumeration that have a comment. -/
def enumLines (values : List EnumValue) (symbol : EnumValue → String) : Except CommentError String :=
  values.foldlM (fun text value => do
    let description ← value.comment.description
    return if description = "" then text
      else text ++ "- " ++ description ++ ": " ++ symbol value ++ "\n") ""

/-- The schema of an enumeration; its first value is the default. -/
def enumSchema (style : EnumStyle) (enum : Enumeration) : Build Element := do
  let (type, symbols) : String × List Value := match style with
    | .string => ("string", enum.values.map fun value => .string value.name)
    | .integer => ("integer", enum.values.map fun value => .int value.number)
  let symbolText (value : EnumValue) : String := match style with
    | .string => value.name
    | .integer => toString value.number
  let lines ← Build.comment (enumLines enum.values symbolText)
  let listed := (Schema.ofFormat type "enum").set "enum" (.list symbols)
  let schema := match symbols.head? with
    | some first => listed.set "default" (.value first)
    | none => listed
  return Schema.described schema lines

namespace Config

variable (config : Config)

/-- A reference to the component schema of a message. -/
def referTo (message : Message) : Build Element := do
  let name := config.messageName message
  Build.require name
  return Schema.reference name

/-- The schema of a message: in place for well-known types, where the message without content has
none, and a reference otherwise. -/
def schemaOfMessage (message : Message) : Build (Option Element) := do
  if WellKnown.isInline message.fullName then
    return WellKnown.inlineSchema? message.fullName (some message)
  else return some (← config.referTo message)

/-- The schema of one value of a field, if it has one. -/
def schemaOfValue (registry : Registry) (field : MessageField) : Build (Option Element) :=
  match field.type.schemaClass with
  | .message =>
    match registry.messageOf? field with
    | some message => config.schemaOfMessage message
    | none => do
      Build.report (.unresolvedMessage field.definition.typeName field.fullName)
      return none
  | .text => return some Schema.string
  | .integer => return some (Schema.integer field.type.word)
  | .enum =>
    match registry.enumOf? field with
    | some enum => return some (← enumSchema config.enumStyle enum)
    | none => do
      Build.report (.unresolvedEnum field.definition.typeName field.fullName)
      return none
  | .boolean => return some Schema.boolean
  | .number => return some (Schema.number field.type.word)
  | .bytes => return some Schema.bytes
  | .unsupported => do
    Build.report (.unsupportedField field.type.word field.fullName)
    return none

/-- The schema of a field, if it has one. -/
def schemaOfField (registry : Registry) (field : MessageField) : Build (Option Element) :=
  match registry.mapEntry? field with
  | some entry =>
    match entry.fields[1]? with
    | some value => return (← config.schemaOfValue registry value).map Schema.mapping
    | none => Build.fail (.noMapValue entry.fullName)
  | none => do
    let schema ← config.schemaOfValue registry field
    return if field.isRepeated then schema.map Schema.sequence else schema

/-- The status code and the content of a successful response. -/
def responseContent (message : Message) : Build (String × Entries Element) := do
  if message.fullName = WellKnown.emptyMessage then return ("200", [])
  if message.fullName = WellKnown.httpBody then return ("200", WellKnown.anyContent)
  let schema ← config.schemaOfMessage message
  return ("200", WellKnown.jsonContent schema)

end Config

end ServiceDoc
