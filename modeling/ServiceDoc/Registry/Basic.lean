import ServiceDoc.Definition.Visit
import ServiceDoc.Text.Case

/-!
# Described types

Messages, enumerations and services with their full names and comments, as they are found in the
files of a run.
-/

namespace ServiceDoc

/-- The name in JSON that follows from the name of a field: underscores are dropped and the letter
after them is capitalised. -/
def jsonNameOf : (capitalize : Bool) → List Char → List Char
  | _, [] => []
  | capitalize, c :: rest =>
    if c = '_' then jsonNameOf true rest
    else if capitalize then Text.upper c ++ jsonNameOf false rest
    else c :: jsonNameOf false rest

/-- A field of a message. -/
structure MessageField where
  fullName : String
  /-- The full name of the message. -/
  containing : String
  definition : FieldDefinition
  comment : Comment
  deriving DecidableEq, Repr

namespace MessageField

/-- The name. -/
def name (field : MessageField) : String := field.definition.name

/-- The name in JSON. -/
def jsonName (field : MessageField) : String :=
  if field.definition.jsonName = "" then
    String.ofList (jsonNameOf false field.definition.name.toList)
  else field.definition.jsonName

/-- The type. -/
def type (field : MessageField) : FieldType := field.definition.type

/-- Whether the field occurs any number of times. -/
def isRepeated (field : MessageField) : Bool := field.definition.label == .repeated

/-- Whether the field holds a message. -/
def isMessage (field : MessageField) : Bool := field.type == .message

/-- The text that describes the field. -/
def description (field : MessageField) : Except CommentError String := field.comment.description

/-- The behaviour of a field that must be set. -/
def requiredBehavior : Int := 2

/-- The behaviour of a field that only answers hold. -/
def outputOnlyBehavior : Int := 3

/-- The behaviour of a field that only requests hold. -/
def inputOnlyBehavior : Int := 4

/-- Whether the field must be set. -/
def isRequired (field : MessageField) : Bool :=
  field.definition.behaviors.contains requiredBehavior

/-- Whether only answers hold the field. -/
def isOutputOnly (field : MessageField) : Bool :=
  field.definition.behaviors.contains outputOnlyBehavior

/-- Whether only requests hold the field. -/
def isInputOnly (field : MessageField) : Bool :=
  field.definition.behaviors.contains inputOnlyBehavior

/-- How messages show a field. -/
def shown (field : MessageField) : String := "<Field " ++ field.fullName ++ ">"

end MessageField

/-- A message. -/
structure Message where
  name : String
  fullName : String
  package : String
  /-- The message that it is defined in. -/
  parent : Option TypeName := none
  comment : Comment := .empty
  fields : List MessageField := []
  /-- The full names of the messages defined inside. -/
  messages : List String := []
  /-- The full names of the enumerations defined inside. -/
  enums : List String := []
  /-- Whether the message is the entry of a map. -/
  isMapEntry : Bool := false
  deriving DecidableEq, Repr

namespace Message

/-- The text that describes the message. -/
def description (message : Message) : Except CommentError String := message.comment.description

/-- The first field with a name, either as it is defined or as JSON spells it. -/
def field? (message : Message) (name : String) : Option MessageField :=
  message.fields.find? fun field => name == field.name || name == field.jsonName

/-- How messages show a message. -/
def shown (message : Message) : String := "<Message " ++ message.fullName ++ ">"

end Message

/-- A value of an enumeration. -/
structure EnumValue where
  name : String
  number : Int
  comment : Comment
  deriving DecidableEq, Repr

/-- An enumeration. -/
structure Enumeration where
  name : String
  fullName : String
  comment : Comment
  values : List EnumValue
  deriving DecidableEq, Repr

/-- A method of a service. -/
structure Method where
  definition : MethodDefinition
  comment : Comment
  deriving DecidableEq, Repr

/-- A service. -/
structure Service where
  name : String
  fullName : String
  /-- The host that serves it, empty if unknown. -/
  defaultHost : String
  comment : Comment
  methods : List Method
  deriving DecidableEq, Repr

/-- A file and what it defines. -/
structure SourceFile where
  /-- The position of the file in the run, which no other file has. -/
  position : Nat
  name : String
  package : String
  /-- Whether the file is to be described itself. -/
  isGenerated : Bool
  locations : List Location
  /-- All messages, inner ones before the message that holds them. -/
  messages : List Message
  /-- All enumerations, in the order in which they are visited. -/
  enums : List Enumeration
  services : List Service
  /-- The full names of the messages that no other message holds. -/
  outerMessages : List String
  /-- The full names of the enumerations that no message holds. -/
  outerEnums : List String
  deriving DecidableEq, Repr

namespace SourceFile

/-- The annotation of a key that the file carries. -/
def payload? (file : SourceFile) (key : AnnotationKey) :
    Except FileCommentError (Option (Entries Value)) :=
  (SourceInfo.fileAnnotations file.locations).map (·.lookup key)

/-- How messages show a file. -/
def shown (file : SourceFile) : String := "<File " ++ file.name ++ ">"

end SourceFile

/-- The message of a context and definition. -/
def Message.ofDefinition (package : String) (locations : List Location) (context : Context)
    (parent : Option TypeName) (definition : MessageDefinition) : Message where
  name := definition.name
  fullName := context.name
  package
  parent
  comment := SourceInfo.comment locations context.path
  fields := (context.fields definition).map fun (inner, field) =>
    { fullName := inner.name
      containing := context.name
      definition := field
      comment := SourceInfo.comment locations inner.path }
  messages := definition.messages.map fun nested => Context.qualified context.name nested.name
  enums := definition.enums.map fun nested => Context.qualified context.name nested.name
  isMapEntry := definition.isMapEntry

/-- The enumeration of a context and definition. -/
def Enumeration.ofDefinition (locations : List Location) (context : Context)
    (definition : EnumDefinition) : Enumeration where
  name := definition.name
  fullName := context.name
  comment := SourceInfo.comment locations context.path
  values := (context.values definition).map fun (inner, value) =>
    { name := value.name
      number := value.number
      comment := SourceInfo.comment locations inner.path }

/-- The service of a context and definition. -/
def Service.ofDefinition (locations : List Location) (context : Context)
    (definition : ServiceDefinition) : Service where
  name := definition.name
  fullName := context.name
  defaultHost := definition.defaultHost
  comment := SourceInfo.comment locations context.path
  methods := (context.methods definition).map fun (inner, method) =>
    { definition := method
      comment := SourceInfo.comment locations inner.path }

/-- What a file defines. -/
def SourceFile.ofDefinition (generated : List String) (position : Nat) (file : FileDefinition) :
    SourceFile :=
  let visits := file.visits
  { position
    name := file.name
    package := file.package
    isGenerated := generated.contains file.name
    locations := file.locations
    messages := visits.filterMap fun
      | .message context parent definition =>
        some (.ofDefinition file.package file.locations context parent definition)
      | _ => none
    enums := visits.filterMap fun
      | .enum context definition => some (.ofDefinition file.locations context definition)
      | _ => none
    services := visits.filterMap fun
      | .service context definition => some (.ofDefinition file.locations context definition)
      | _ => none
    outerMessages := file.messages.map fun message => Context.qualified file.package message.name
    outerEnums := file.enums.map fun enum => Context.qualified file.package enum.name }

end ServiceDoc
