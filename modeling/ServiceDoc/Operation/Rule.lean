import ServiceDoc.Definition.Basic

/-!
# HTTP rules

A method is bound to HTTP by a verb, a path template and what of the input is the body of the
request. Only the usual verbs become operations.
-/

namespace ServiceDoc

/-- The verb of a binding. -/
inductive Verb where
  | get
  | put
  | post
  | delete
  | patch
  /-- A verb of its own. -/
  | custom
  | unknown
  deriving DecidableEq, Repr

namespace Verb

/-- The word for a verb. -/
def word : Verb → String
  | get => "get"
  | put => "put"
  | post => "post"
  | delete => "delete"
  | patch => "patch"
  | custom => "custom"
  | unknown => "unknown"

/-- All verbs. -/
def all : List Verb := [get, put, post, delete, patch, custom, unknown]

/-- The verb of a word. -/
def ofWord? (word : String) : Option Verb := all.find? fun verb => verb.word == word

/-- Whether a binding of the verb is an operation. -/
def isSupported : Verb → Bool
  | custom | unknown => false
  | _ => true

end Verb

/-- A binding of a method to HTTP. -/
structure Rule where
  path : String
  verb : Verb
  /-- What of the input is the body. -/
  body : String
  deriving DecidableEq, Repr

/-- The binding that a rule defines; without a usual verb it has no path. -/
def Rule.ofDefinition (definition : RuleDefinition) : Rule :=
  match definition.pattern with
  | .unset => ⟨"", .unknown, definition.body⟩
  | .custom => ⟨"", .custom, definition.body⟩
  | .verb verb path => ⟨path, (Verb.ofWord? verb).getD .unknown, definition.body⟩

end ServiceDoc
