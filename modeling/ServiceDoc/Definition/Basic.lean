/-!
# Definitions

What the definition files of a run hold: messages with fields, enumerations, services whose methods
are bound to HTTP, and the comments beside them, each located by its path of field numbers and
positions from the root of the file.
-/

namespace ServiceDoc

/-- The type of a field. -/
inductive FieldType where
  | double
  | float
  /-- A signed integer of 64 bits. -/
  | int64
  /-- An unsigned integer of 64 bits. -/
  | uint64
  /-- A signed integer of 32 bits. -/
  | int32
  /-- An unsigned integer of 64 bits in fixed width. -/
  | fixed64
  /-- An unsigned integer of 32 bits in fixed width. -/
  | fixed32
  | bool
  | string
  /-- A group, a message that is defined in place. -/
  | group
  | message
  | bytes
  /-- An unsigned integer of 32 bits. -/
  | uint32
  | enum
  /-- A signed integer of 32 bits in fixed width. -/
  | sfixed32
  /-- A signed integer of 64 bits in fixed width. -/
  | sfixed64
  /-- A signed integer of 32 bits in zigzag encoding. -/
  | sint32
  /-- A signed integer of 64 bits in zigzag encoding. -/
  | sint64
  deriving DecidableEq, Repr

namespace FieldType

/-- The word for a type, which is also its format. -/
def word : FieldType → String
  | double => "double"
  | float => "float"
  | int64 => "int64"
  | uint64 => "uint64"
  | int32 => "int32"
  | fixed64 => "fixed64"
  | fixed32 => "fixed32"
  | bool => "bool"
  | string => "string"
  | group => "group"
  | message => "message"
  | bytes => "bytes"
  | uint32 => "uint32"
  | enum => "enum"
  | sfixed32 => "sfixed32"
  | sfixed64 => "sfixed64"
  | sint32 => "sint32"
  | sint64 => "sint64"

/-- All types in the order of their numbers, which start at one. -/
def all : List FieldType := [
  double, float, int64, uint64, int32, fixed64, fixed32, bool, string, group, message, bytes,
  uint32, enum, sfixed32, sfixed64, sint32, sint64]

/-- The number of a type. -/
def number (type : FieldType) : Nat := all.idxOf type + 1

/-- The type of a number. -/
def ofNumber? (number : Nat) : Option FieldType :=
  if number = 0 then none else all[number - 1]?

/-- The type of a word. -/
def ofWord? (word : String) : Option FieldType := all.find? fun type => type.word == word

/-- Every type is found by its number. -/
theorem ofNumber?_number (type : FieldType) : ofNumber? type.number = some type := by
  cases type <;> decide

end FieldType

/-- How often a field occurs. -/
inductive FieldLabel where
  | optional
  | required
  /-- Any number of times. -/
  | repeated
  deriving DecidableEq, Repr

/-- A field of a message. -/
structure FieldDefinition where
  name : String := ""
  /-- How often the field occurs. -/
  label : FieldLabel := .optional
  type : FieldType := .double
  /-- The full name of the message or enumeration, with a leading dot. -/
  typeName : String := ""
  /-- The name in JSON, empty if it follows from the name. -/
  jsonName : String := ""
  /-- Whether the field should no longer be used. -/
  deprecated : Bool := false
  /-- The numbers of the behaviours of the field. -/
  behaviors : List Int := []
  deriving DecidableEq, Repr

/-- A value of an enumeration. -/
structure EnumValueDefinition where
  name : String := ""
  number : Int := 0
  deriving DecidableEq, Repr

/-- An enumeration. -/
structure EnumDefinition where
  name : String := ""
  values : List EnumValueDefinition := []
  deriving DecidableEq, Repr

/-- A message. -/
structure MessageDefinition where
  name : String := ""
  fields : List FieldDefinition := []
  messages : List MessageDefinition := []
  enums : List EnumDefinition := []
  /-- Whether the message is the entry of a map. -/
  isMapEntry : Bool := false

instance : Inhabited MessageDefinition := ⟨{}⟩

/-- The pattern of an HTTP rule. -/
inductive RulePattern where
  | unset
  /-- A verb and a path template. -/
  | verb (verb path : String)
  /-- A verb outside the usual ones. -/
  | custom
  deriving DecidableEq, Repr

/-- The binding of a method to HTTP. -/
structure RuleDefinition where
  /-- The verb and path. -/
  pattern : RulePattern := .unset
  /-- What of the input is the body of the request. -/
  body : String := ""
  deriving DecidableEq, Repr

/-- A method of a service. -/
structure MethodDefinition where
  name : String := ""
  /-- The full name of the input message, with a leading dot. -/
  input : String := ""
  /-- The full name of the output message, with a leading dot. -/
  output : String := ""
  /-- The bindings, the additional ones after the first. -/
  rules : List RuleDefinition := []
  deriving DecidableEq, Repr

/-- A service. -/
structure ServiceDefinition where
  name : String := ""
  /-- The host that serves it, empty if unknown. -/
  defaultHost : String := ""
  methods : List MethodDefinition := []
  deriving DecidableEq, Repr

/-- The comments at a place of a file. -/
structure Location where
  /-- Field numbers and positions that lead to a definition. -/
  path : List Int := []
  /-- First line and further bounds of the definition. -/
  span : List Int := []
  /-- The comment right before the definition. -/
  leading : String := ""
  /-- Comments further before it. -/
  detached : List String := []
  deriving DecidableEq, Repr

/-- A definition file. -/
structure FileDefinition where
  name : String := ""
  package : String := ""
  messages : List MessageDefinition := []
  enums : List EnumDefinition := []
  services : List ServiceDefinition := []
  locations : List Location := []

end ServiceDoc
