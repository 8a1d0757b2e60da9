import ServiceDoc.Config.Basic
import ServiceDoc.Registry.Basic
import ServiceDoc.Text.Case

/-!
# Names

How messages, fields and path segments are named in a document.
-/

namespace ServiceDoc

/-- What of a text comes before a suffix. -/
def withoutSuffix? (ending : String) (text : String) : Option String :=
  let reversed := text.toList.reverse
  if ending.toList.reverse.isPrefixOf reversed then
    some (String.ofList (reversed.drop ending.length).reverse)
  else none

/-- The name of one resource of a collection, by its ending. -/
def singular (collection : String) : String :=
  match withoutSuffix? "ves" collection with
  | some stem => stem ++ "f"
  | none =>
    match withoutSuffix? "ies" collection with
    | some stem => stem ++ "y"
    | none => (withoutSuffix? "s" collection).getD collection

/-- A name in a naming: JSON starts names with a capital letter, but for names of one letter. -/
def Naming.apply (naming : Naming) (name : String) : String :=
  match naming with
  | .proto => name
  | .json =>
    match name.toList with
    | first :: second :: rest => String.ofList (Text.upper first ++ second :: rest)
    | short => String.ofList (short.flatMap Text.lower)

/-- What of a message its schema name depends on. -/
structure MessageIdentity where
  name : String
  fullName : String
  package : String
  /-- The name of the message that it is defined in. -/
  parent : Option String := none
  deriving DecidableEq, Repr

/-- What the schema name of a message depends on. -/
def Message.identity (message : Message) : MessageIdentity where
  name := message.name
  fullName := message.fullName
  package := message.package
  parent := message.parent.map TypeName.name

/-- The message that holds any message. -/
def anyIdentity : MessageIdentity := ⟨"Any", "google.protobuf.Any", "google.protobuf", none⟩

/-- The message that describes an error. -/
def statusIdentity : MessageIdentity := ⟨"Status", "google.rpc.Status", "google.rpc", none⟩

/-- The name of a message, with that of the message that holds it. -/
def MessageIdentity.scopedName (identity : MessageIdentity) : String :=
  match identity.parent with
  | some parent => parent ++ "_" ++ identity.name
  | none => identity.name

/-- Names of their own for messages whose JSON form is not their structure. -/
def builtinName? (fullName : String) : Option String :=
  if fullName = "google.protobuf.Value" then some "GoogleProtobufValue"
  else if fullName = "google.protobuf.Any" then some "GoogleProtobufAny"
  else none

/-- The name of the component schema of a message. -/
def Config.schemaName (config : Config) (identity : MessageIdentity) : String :=
  if config.qualifiedNames then
    identity.package ++ "." ++ config.naming.apply identity.scopedName
  else
    config.naming.apply ((builtinName? identity.fullName).getD identity.scopedName)

/-- The name of the component schema of a message. -/
def Config.messageName (config : Config) (message : Message) : String :=
  config.schemaName message.identity

/-- The name of a field. -/
def Config.fieldName (config : Config) (field : MessageField) : String :=
  match config.naming with
  | .proto => field.name
  | .json => field.jsonName

/-- The name of the field that a path names; without such a field, the name in the path. -/
def Config.pathName (config : Config) (message : Option Message) (name : String) : String :=
  match message.bind (·.field? name) with
  | some field => config.fieldName field
  | none => name

end ServiceDoc
