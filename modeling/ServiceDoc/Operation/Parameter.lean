import ServiceDoc.OpenApi.Element
import ServiceDoc.Registry.Basic
import ServiceDoc.Text.Blank
import ServiceDoc.Text.Pieces

/-!
# Parameters

What an operation takes from the path and the query of a request.
-/

namespace ServiceDoc

/-- Where a parameter stands. -/
inductive ParameterPlace where
  | path
  | query
  deriving DecidableEq, Repr

/-- The word for a place. -/
def ParameterPlace.word : ParameterPlace → String
  | path => "path"
  | query => "query"

/-- A parameter of an operation. -/
structure Parameter where
  name : String
  place : ParameterPlace
  /-- What it means; empty if nothing is known. -/
  description : String
  /-- Whether it must be given. -/
  required : Bool
  schema : Option Element
  /-- What it holds when it is not given. -/
  preset : Option String := none

namespace Parameter

/-- The element that describes a parameter. -/
def toElement (parameter : Parameter) : Element :=
  let named := ((Element.empty .parameter).setText "name" parameter.name).setText "in"
    parameter.place.word
  let described := (named.setText "description" parameter.description).setFlag "required"
    parameter.required
  let shaped := described.setOne? "schema" parameter.schema
  match parameter.preset with
  | some text => shaped.putExtension (.string "x-default") (.string text)
  | none => shaped

/-- What marks the value that a parameter has when it is not given. -/
def presetMarker : String := "Default:"

/-- The value after the first marker in a text. -/
def preset? (lines : List (List Char)) : Option String :=
  lines.findSome? fun line =>
    (Text.cutFirst presetMarker.toList line).map fun (_, after) => String.ofList (Text.trim after)

/-- The first line of a comment, and the value after the first marker. -/
def summary (comment : String) : String × Option String :=
  let lines := Text.cutAt '\n' comment.toList
  (String.ofList (Text.trim (lines.headD [])), preset? lines)

end Parameter

end ServiceDoc
