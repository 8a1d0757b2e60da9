import ServiceDoc.OpenApi.Element
import ServiceDoc.Registry.Basic
import ServiceDoc.Value.Same

/-!
# Well-known types

Messages whose JSON form is not their structure have schemas of their own. So have the types of
single fields.
-/

namespace ServiceDoc

namespace Schema

/-- A schema of a type. -/
def ofType (type : String) : Element := (Element.empty .schema).setText "type" type

/-- A schema of a type in a format. -/
def ofFormat (type format : String) : Element := (ofType type).setText "format" format

/-- A text. -/
def string : Element := ofType "string"

/-- A truth value. -/
def boolean : Element := ofType "boolean"

/-- Bytes as text. -/
def bytes : Element := ofFormat "string" "bytes"

/-- An integer in a format. -/
def integer (format : String) : Element := ofFormat "integer" format

/-- A number in a format. -/
def number (format : String) : Element := ofFormat "number" format

/-- A sequence. -/
def sequence (items : Element) : Element := (ofType "array").set "items" (.one items)

/-- A mapping from texts. -/
def mapping (values : Element) : Element :=
  (ofType "object").set "additionalProperties" (.one values)

/-- What references to component schemas start with. -/
def referencePrefix : String := "#/components/schemas/"

/-- A reference to a component schema. -/
def reference (name : String) : Element :=
  (Element.empty .reference).setText "$ref" (referencePrefix ++ name)

/-- A reference to a component schema whose name is given by its code points. -/
def referenceTo (name : List Nat) : Element :=
  (Element.empty .reference).set "$ref"
    (.value (.scalar (.ofCodes (Text.codes referencePrefix ++ name))))

/-- The code points of the name of the component schema that a reference refers to. -/
def referenceCodes? (element : Element) : Option (List Nat) := do
  let codes ← match ← element.value? "$ref" with
    | .scalar scalar => scalar.codes?
    | _ => none
  let start := Text.codes referencePrefix
  if start.isPrefixOf codes then some (codes.drop start.length) else none

/-- The name of the component schema that a reference refers to. -/
def referenceName? (element : Element) : Option String := do
  let text ← (← element.value? "$ref").string?
  if referencePrefix.toList.isPrefixOf text.toList then
    some (String.ofList (text.toList.drop referencePrefix.length))
  else none

/-- A described schema. -/
def described (schema : Element) (description : String) : Element :=
  schema.setText "description" description

end Schema

namespace WellKnown

/-- The full name of a message of the basic package. -/
abbrev basic (name : String) : String := "google.protobuf." ++ name

/-- Messages that wrap one value. -/
def wrappers : List String :=
  ["BoolValue", "BytesValue", "Int32Value", "UInt32Value", "StringValue", "Int64Value",
    "UInt64Value", "FloatValue", "DoubleValue"].map basic

/-- The message for bodies in any format. -/
def httpBody : String := "google.api.HttpBody"

/-- The message without content. -/
def emptyMessage : String := basic "Empty"

/-- The message for any value. -/
def valueMessage : String := basic "Value"

/-- The message for any message. -/
def anyMessage : String := basic "Any"

/-- The message for errors. -/
def statusMessage : String := "google.rpc.Status"

/-- Messages that are written in place and never as components. -/
def inlineTypes : List String :=
  [httpBody, basic "Timestamp", basic "Duration", "google.type.Date", "google.type.DateTime",
    basic "FieldMask", basic "Struct", emptyMessage] ++ wrappers

/-- Messages that are one query parameter and are not expanded. -/
def queryLeaves : List String :=
  [valueMessage, basic "Timestamp", basic "Duration", "google.type.Date", "google.type.DateTime",
    basic "FieldMask"] ++ wrappers

/-- Whether a message is written in place. -/
def isInline (fullName : String) : Bool := inlineTypes.contains fullName

/-- Whether a message is one query parameter. -/
def isQueryLeaf (fullName : String) : Bool := queryLeaves.contains fullName

/-- The pattern of a duration. -/
def durationPattern : String := "^-?(?:0|[1-9][0-9]\x7b0,11\x7d)(?:\\.[0-9]\x7b1,9\x7d)?s$"

/-- The description of a duration. -/
def durationDescription : String :=
  "Represents a a duration between -315,576,000,000s and 315,576,000,000s " ++
  "(around 10000 years). Precision is in nanoseconds. 1 nanosecond is " ++
  "represented as 0.000000001s"

/-- The description of any value. -/
def valueDescription : String :=
  "Represents a dynamically typed value which can be either null, a number, " ++
  "a string, a boolean, a recursive struct value, or a list of values."

/-- The description of any message. -/
def anyDescription : String :=
  "Contains an arbitrary serialized message along with a @type that " ++
  "describes the type of the serialized message."

/-- The description of an error. -/
def statusDescription : String :=
  "The `Status` type defines a logical error model that is suitable for " ++
  "different programming environments, including REST APIs and RPC APIs. " ++
  "It is used by [gRPC](https://github.com/grpc). Each `Status` message " ++
  "contains three pieces of data: error code, error message, and error " ++
  "details. You can find out more about this error model and how to work " ++
  "with it in the [API Design Guide](https://cloud.google.com/apis/design/errors)."

/-- The format of the value that a wrapper holds, as its field says or else as its name does. -/
def wrapperFormat (fullName : String) (message : Option Message) : String :=
  match message.bind (·.field? "value") with
  | some field => field.type.word
  | none =>
    if fullName = basic "Int32Value" then "int32"
    else if fullName = basic "UInt32Value" then "uint32"
    else if fullName = basic "FloatValue" then "float"
    else "double"

/-- The schema that is written in place for a message, if there is one; the message without content
has none. -/
def inlineSchema? (fullName : String) (message : Option Message) : Option Element :=
  if fullName = httpBody then some Schema.string
  else if fullName ∈ [basic "Timestamp", "google.type.DateTime"] then
    some (Schema.ofFormat "string" "date-time")
  else if fullName = basic "Duration" then
    some (((Schema.ofType "string").setText "pattern" durationPattern).setText "description"
      durationDescription)
  else if fullName = "google.type.Date" then some (Schema.ofFormat "string" "date")
  else if fullName = basic "FieldMask" then some (Schema.ofFormat "string" "field-mask")
  else if fullName = basic "Struct" then some (Schema.ofType "object")
  else if fullName = basic "BoolValue" then some Schema.boolean
  else if fullName = basic "BytesValue" then some Schema.bytes
  else if fullName ∈ [basic "Int32Value", basic "UInt32Value"] then
    some (Schema.integer (wrapperFormat fullName message))
  else if fullName ∈ [basic "StringValue", basic "Int64Value", basic "UInt64Value"] then
    some Schema.string
  else if fullName ∈ [basic "FloatValue", basic "DoubleValue"] then
    some (Schema.number (wrapperFormat fullName message))
  else none

/-- The component schema of any value. -/
def valueSchema : Element := Schema.described (.empty .schema) valueDescription

/-- The component schema of any message. -/
def anySchema : Element :=
  let type := Schema.described Schema.string "The type of the serialized message."
  ((Schema.described (Schema.ofType "object") anyDescription).set "properties"
    (.table [(.string "@type", type)])).set "additionalProperties" (.value (.bool true))

/-- The component schema of an error, whose details refer to the schema of any message. -/
def statusSchema (anyName : String) : Element :=
  let code := Schema.described (Schema.integer "int32")
    ("The status code, which should be an enum value of " ++
      "[google.rpc.Code][google.rpc.Code].")
  let text := Schema.described Schema.string
    ("A developer-facing error message, which should be in English. " ++
      "Any user-facing error message should be localized and sent in the " ++
      "[google.rpc.Status.details][google.rpc.Status.details] field, " ++
      "or localized by the client.")
  let details := Schema.described (Schema.sequence (Schema.reference anyName))
    ("A list of messages that carry the error details.  There is a " ++
      "common set of message types for APIs to use.")
  (Schema.described (Schema.ofType "object") statusDescription).set "properties"
    (.table [(.string "code", code), (.string "message", text), (.string "details", details)])

/-- The content of a body in JSON; without a schema, its form is open. -/
def jsonContent (schema : Option Element) : Entries Element :=
  [(.string "application/json", (Element.empty .mediaType).setOne? "schema" schema)]

/-- The content of a body in any format. -/
def anyContent : Entries Element :=
  [(.string "*/*", (Element.empty .mediaType).set "schema" (.one Schema.string))]

end WellKnown

end ServiceDoc
