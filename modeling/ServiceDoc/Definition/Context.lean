import ServiceDoc.Definition.SourceInfo

/-!
# The context of a definition

A definition is named by the names on the way to it, joined with dots, and placed by a path. Each
step of a path is the number of a list in the enclosing definition and a position in that list.
-/

namespace ServiceDoc

/-- What a definition defines. -/
inductive DefinitionKind where
  | file
  | message
  | enum
  | service
  | field
  | enumValue
  | method
  deriving DecidableEq, Repr

namespace DefinitionKind

/-- The word for a kind of definition. -/
def word : DefinitionKind → String
  | file => "file"
  | message => "message"
  | enum => "enum"
  | service => "service"
  | field => "field"
  | enumValue => "enum_value"
  | method => "method"

/-- All kinds of definition. -/
def all : List DefinitionKind := [file, message, enum, service, field, enumValue, method]

/-- The kind of a word. -/
def ofWord? (word : String) : Option DefinitionKind := all.find? fun kind => kind.word == word

/-- The number of the list that holds definitions of a kind inside a definition of another. -/
def listNumber? (inner outer : DefinitionKind) : Option Int :=
  match inner, outer with
  | message, file => some 4
  | enum, file => some 5
  | service, file => some 6
  | message, message => some 3
  | enum, message => some 4
  | field, message => some 2
  | enumValue, enum => some 2
  | method, service => some 2
  | _, _ => none

end DefinitionKind

/-- Name and place of a definition. -/
structure Context where
  kind : DefinitionKind
  /-- The full name; for a file, its package. -/
  name : String
  path : List Int
  deriving DecidableEq, Repr

namespace Context

/-- The context of a file. -/
def ofFile (package : String) : Context := ⟨.file, package, []⟩

/-- A name inside a scope. -/
def qualified (scope name : String) : String := if scope = "" then name else scope ++ "." ++ name

/-- The context of the definition of a kind at a position of its list, if such a list exists. -/
def inner? (context : Context) (kind : DefinitionKind) (position : Int) (name : String) :
    Option Context :=
  (kind.listNumber? context.kind).map fun number =>
    ⟨kind, qualified context.name name, context.path ++ [number, position]⟩

/-- The context of an inner definition of a list that exists. -/
def inner (context : Context) (kind : DefinitionKind) (number : Int) (position : Nat)
    (name : String) : Context :=
  ⟨kind, qualified context.name name, context.path ++ [number, position]⟩

/-- How messages show a context. -/
def shown (context : Context) : String :=
  "<TypeContext " ++ context.kind.word ++ " " ++ context.name ++ ">"

end Context

end ServiceDoc
