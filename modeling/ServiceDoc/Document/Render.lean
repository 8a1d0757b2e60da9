import ServiceDoc.Config.Basic
import ServiceDoc.Json.Write
import ServiceDoc.OpenApi.Depth
import ServiceDoc.OpenApi.Merge
import ServiceDoc.Yaml.Write

/-!
# Rendering a document

A finished document is written as YAML under a line that says where it comes from, or as JSON.

In YAML a container or date that is used in two places is named once. Lists, mappings and the
extensions of an element are copied when they are written, each for itself, so that a thing is
shared only inside one of them; a single value, and the key of an element, are written as what they
are.
-/

namespace ServiceDoc

/-- The stamp of what is written without being copied. -/
def ownStamp : Mark := [1]

mutual
/-- An element whose lists, mappings and extensions are copies of their own; the way tells copies
apart. -/
def Element.isolatedAt (way : List Nat) : Element → Element
  | .mk kind fields extensions =>
    .mk kind (isolatedFields way 1 fields)
      (Value.stampedEntries (0 :: stampOf (way ++ [0])) extensions)

/-- Copy the contents of fields, counting from a position. -/
def isolatedFields (way : List Nat) (position : Nat) :
    List (String × Content) → List (String × Content)
  | [] => []
  | (key, content) :: fields =>
    (key, isolatedContent (way ++ [position]) content) :: isolatedFields way (position + 1) fields

/-- Copy what a field holds. -/
def isolatedContent (way : List Nat) : Content → Content
  | .value value => .value (value.stamped ownStamp)
  | .flag => .flag
  | .list items => .list (Value.stampedItems (0 :: stampOf way) items)
  | .map entries => .map (Value.stampedEntries (0 :: stampOf way) entries)
  | .one element => .one (element.isolatedAt way)
  | .many elements => .many (isolatedMany way 0 elements)
  | .table entries => .table (isolatedTable way 0 entries)

/-- Copy the contents of a sequence of elements, counting from a position. -/
def isolatedMany (way : List Nat) (position : Nat) : List Element → List Element
  | [] => []
  | element :: elements =>
    element.isolatedAt (way ++ [position]) :: isolatedMany way (position + 1) elements

/-- Copy the contents of a mapping to elements, counting from a position. -/
def isolatedTable (way : List Nat) (position : Nat) :
    List (Scalar × Element) → List (Scalar × Element)
  | [] => []
  | (key, element) :: entries =>
    (key.stamped ownStamp, element.isolatedAt (way ++ [position])) ::
      isolatedTable way (position + 1) entries
end

/-- The line that YAML documents start with. -/
def headerLine : String := "# Generated with protoc-gen-openapi\n"

/-- The value that is written for a document, unless it is too deep. -/
def Format.value (format : Format) (document : Element) : Except WriteError Value :=
  if document.isTooDeep then .error .tooDeep
  else match format with
    | .yaml => .ok (document.isolatedAt []).toValue
    | .json => .ok document.toValue

/-- The text of the value of a document, as code points. -/
def Format.write (format : Format) (value : Value) : Except WriteError (List Nat) :=
  match format with
  | .yaml => do return Text.codes headerLine ++ (← Yaml.write value)
  | .json => Json.document value

/-- The text of a document in a format, as code points. -/
def Format.render (format : Format) (document : Element) : Except WriteError (List Nat) :=
  format.value document >>= format.write

end ServiceDoc
