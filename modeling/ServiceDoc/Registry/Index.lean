import ServiceDoc.Registry.Basic

/-!
# The registry

The types of all files of a run by their full names. A later definition of a name replaces an
earlier one and keeps its place.
-/

namespace ServiceDoc

/-- Named things, in order of first appearance of their names. -/
abbrev Index (α : Type) := List (String × α)

namespace Index

variable {α : Type}

/-- Set what a name stands for, in place if it stands for something already. -/
def put : Index α → String → α → Index α
  | [], name, value => [(name, value)]
  | (other, old) :: rest, name, value =>
    if other = name then (name, value) :: rest else (other, old) :: put rest name value

end Index

/-- The files of a run and the types that they define. -/
structure Registry where
  /-- The names of the files to describe. -/
  generated : List String := []
  files : List SourceFile := []
  messages : Index Message := []
  enums : Index Enumeration := []
  deriving DecidableEq, Repr

/-- A type name without its leading dot. -/
def withoutDot (typeName : String) : String :=
  match typeName.toList with
  | '.' :: rest => String.ofList rest
  | _ => typeName

namespace Registry

/-- The position of the next file, by its name. Files to describe have even positions and others odd
ones, so that the position of a file to describe does not depend on what other files there are. -/
def nextPosition (registry : Registry) (name : String) : Nat :=
  if registry.generated.contains name then 2 * registry.files.countP SourceFile.isGenerated
  else 2 * registry.files.countP (fun file => !file.isGenerated) + 1

/-- Add a file behind the others. -/
def add (registry : Registry) (definition : FileDefinition) : Registry :=
  let file := SourceFile.ofDefinition registry.generated (registry.nextPosition definition.name)
    definition
  { registry with
    files := registry.files ++ [file]
    messages := file.messages.foldl (fun index message => index.put message.fullName message)
      registry.messages
    enums := file.enums.foldl (fun index enum => index.put enum.fullName enum) registry.enums }

/-- The registry of files, some of which are to be described. -/
def ofFiles (generated : List String) (files : List FileDefinition) : Registry :=
  files.foldl add { generated }

/-- The message of a type name. -/
def message? (registry : Registry) (typeName : String) : Option Message :=
  registry.messages.lookup (withoutDot typeName)

/-- The enumeration of a type name. -/
def enum? (registry : Registry) (typeName : String) : Option Enumeration :=
  registry.enums.lookup (withoutDot typeName)

/-- The files to describe. -/
def generatedFiles (registry : Registry) : List SourceFile :=
  registry.files.filter SourceFile.isGenerated

/-- The message that a field holds. -/
def messageOf? (registry : Registry) (field : MessageField) : Option Message :=
  if field.isMessage then registry.message? field.definition.typeName else none

/-- The enumeration that a field takes its value from. -/
def enumOf? (registry : Registry) (field : MessageField) : Option Enumeration :=
  if field.type = .enum then registry.enum? field.definition.typeName else none

/-- The entry of the map that a field is. -/
def mapEntry? (registry : Registry) (field : MessageField) : Option Message :=
  if field.isRepeated then (registry.messageOf? field).filter Message.isMapEntry else none

/-- Whether a field is a map. -/
def isMap (registry : Registry) (field : MessageField) : Bool := (registry.mapEntry? field).isSome

end Registry

end ServiceDoc
