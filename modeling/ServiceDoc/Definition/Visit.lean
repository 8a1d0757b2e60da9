import ServiceDoc.Definition.Context

/-!
# Visiting definitions

The definitions of a file are visited with their contexts, inner ones before the definition that
holds them: nested messages, then nested enumerations, then the message; in a file the messages,
the enumerations, the services and last the file itself.
-/

namespace ServiceDoc

/-- The simple and the full name of a message. -/
structure TypeName where
  name : String
  fullName : String
  deriving DecidableEq, Repr

/-- A definition met while visiting a file. -/
inductive Visit where
  | enum (context : Context) (definition : EnumDefinition)
  /-- A message, and the message that it is defined in. -/
  | message (context : Context) (parent : Option TypeName) (definition : MessageDefinition)
  | service (context : Context) (definition : ServiceDefinition)
  | file (context : Context) (definition : FileDefinition)

/-- The context of what is visited. -/
def Visit.context : Visit → Context
  | enum context _ | message context _ _ | service context _ | file context _ => context

namespace Context

/-- The context of a message, which stands in another list in a file than in a message. -/
def messageAt (context : Context) (position : Nat) (name : String) : Context :=
  context.inner .message (if context.kind = .file then 4 else 3) position name

/-- The context of an enumeration, which stands in another list in a file than in a message. -/
def enumAt (context : Context) (position : Nat) (name : String) : Context :=
  context.inner .enum (if context.kind = .file then 5 else 4) position name

/-- The context of a service of a file. -/
def serviceAt (context : Context) (position : Nat) (name : String) : Context :=
  context.inner .service 6 position name

/-- The context of a field of a message. -/
def fieldAt (context : Context) (position : Nat) (name : String) : Context :=
  context.inner .field 2 position name

/-- The context of a value of an enumeration. -/
def enumValueAt (context : Context) (position : Nat) (name : String) : Context :=
  context.inner .enumValue 2 position name

/-- The context of a method of a service. -/
def methodAt (context : Context) (position : Nat) (name : String) : Context :=
  context.inner .method 2 position name

/-- The items of a list with the contexts that are made from their positions and names. -/
def placed {α : Type} (make : Nat → String → Context) (name : α → String) (items : List α) :
    List (Context × α) :=
  items.zipIdx.map fun (item, position) => (make position (name item), item)

/-- The fields of a message with their contexts. -/
def fields (context : Context) (message : MessageDefinition) : List (Context × FieldDefinition) :=
  placed context.fieldAt FieldDefinition.name message.fields

/-- The values of an enumeration with their contexts. -/
def values (context : Context) (enum : EnumDefinition) : List (Context × EnumValueDefinition) :=
  placed context.enumValueAt EnumValueDefinition.name enum.values

/-- The methods of a service with their contexts. -/
def methods (context : Context) (service : ServiceDefinition) : List (Context × MethodDefinition) :=
  placed context.methodAt MethodDefinition.name service.methods

end Context

/-- Visit enumerations, counting from a position. -/
def visitEnums (context : Context) (definitions : List EnumDefinition) : List Visit :=
  definitions.zipIdx.map fun (definition, position) =>
    .enum (context.enumAt position definition.name) definition

mutual
/-- Visit a message and what is defined inside it. -/
def visitMessage (context : Context) (parent : Option TypeName) :
    MessageDefinition → List Visit
  | ⟨name, fields, messages, enums, isMapEntry⟩ =>
    visitMessages context (some ⟨name, context.name⟩) 0 messages ++ visitEnums context enums ++
      [.message context parent ⟨name, fields, messages, enums, isMapEntry⟩]

/-- Visit messages, counting from a position. -/
def visitMessages (context : Context) (parent : Option TypeName) (position : Nat) :
    List MessageDefinition → List Visit
  | [] => []
  | definition :: definitions =>
    visitMessage (context.messageAt position definition.name) parent definition ++
      visitMessages context parent (position + 1) definitions
end

/-- Visit the services of a file. -/
def visitServices (context : Context) (definitions : List ServiceDefinition) : List Visit :=
  definitions.zipIdx.map fun (definition, position) =>
    .service (context.serviceAt position definition.name) definition

/-- Visit everything that a file defines. -/
def FileDefinition.visits (file : FileDefinition) : List Visit :=
  let context := Context.ofFile file.package
  visitMessages context none 0 file.messages ++ visitEnums context file.enums ++
    visitServices context file.services ++ [.file context file]

end ServiceDoc
