import ServiceDoc.Registry.Index

/-!
# Recalled look-ups

A registry that is asked about types while files are still added to it. What the type of a field or
of a method was resolved to when it was first asked for stays its answer; the answers for a message
are forgotten when the message is defined anew.
-/

namespace ServiceDoc

/-- What the type of a field was resolved to. -/
structure FieldTypes where
  /-- The message that the field holds. -/
  message : Option Message
  /-- The enumeration that the field takes its value from. -/
  enum : Option Enumeration
  deriving DecidableEq, Repr

/-- The entry of the map that a field of these types is. -/
def FieldTypes.mapEntry? (types : FieldTypes) (field : MessageField) : Option Message :=
  if field.isRepeated then types.message.filter Message.isMapEntry else none

/-- What the types of a method were resolved to. -/
structure MethodTypes where
  /-- The message that the method takes. -/
  input : Option Message
  /-- The message that the method answers with. -/
  output : Option Message
  deriving DecidableEq, Repr

/-- Where a method stands: the positions of the file, of the service and of the method. -/
structure MethodPlace where
  file : Nat
  /-- The position of the service in the file. -/
  service : Nat
  /-- The position of the method in the service. -/
  method : Nat
  deriving DecidableEq, Repr

/-- A registry with the answers that were given. -/
structure Recall where
  /-- The files and types so far. -/
  registry : Registry
  fields : List (MessageField × FieldTypes) := []
  methods : List (MethodPlace × MethodTypes) := []

namespace Recall

/-- Add a file. -/
def add (memory : Recall) (definition : FileDefinition) : Recall :=
  let registry := memory.registry.add definition
  let renewed := (registry.files.getLast?.map SourceFile.messages).getD []
  { memory with
    registry
    fields := memory.fields.filter fun entry =>
      !renewed.any fun message => message.fullName == entry.1.containing }

/-- The types of a field. -/
def fieldTypes (memory : Recall) (field : MessageField) : FieldTypes × Recall :=
  match memory.fields.lookup field with
  | some types => (types, memory)
  | none =>
    let types := ⟨memory.registry.messageOf? field, memory.registry.enumOf? field⟩
    (types, { memory with fields := (field, types) :: memory.fields })

/-- The types of a method at a place. -/
def methodTypes (memory : Recall) (place : MethodPlace) (method : Method) :
    MethodTypes × Recall :=
  match memory.methods.lookup place with
  | some types => (types, memory)
  | none =>
    let types := ⟨memory.registry.message? method.definition.input,
      memory.registry.message? method.definition.output⟩
    (types, { memory with methods := (place, types) :: memory.methods })

/-- Asking a second time gives the first answer and changes nothing. -/
theorem fieldTypes_again (memory : Recall) (field : MessageField) :
    (memory.fieldTypes field).2.fieldTypes field =
      ((memory.fieldTypes field).1, (memory.fieldTypes field).2) := by
  unfold fieldTypes
  cases known : memory.fields.lookup field with
  | some types => simp [known]
  | none => simp

end Recall

end ServiceDoc
