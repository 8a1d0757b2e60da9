import ServiceDoc.Operation.Parameter
import ServiceDoc.Schema.Reflect

/-!
# Path templates

A path template holds placeholders `{name}`, and perhaps one `{name=pattern}` whose pattern names
collections in turn with their resources. Placeholders get the formatted names of their fields,
patterns become the path that they describe, and each placeholder of the result is a parameter.
-/

namespace ServiceDoc

namespace Template

/-- The name of the placeholder that starts a text, and what follows the placeholder. -/
def simpleHere? : List Char → Option (List Char × List Char)
  | '\x7b' :: rest =>
    let name := rest.takeWhile fun c => c ≠ '=' ∧ c ≠ '\x7d'
    match name.isEmpty, rest.drop name.length with
    | false, '\x7d' :: after => some (name, after)
    | _, _ => none
  | _ => none

/-- The names of the simple placeholders of a template, in order. Each step takes at least one
character, so the length bounds their number. -/
def simpleNames : (fuel : Nat) → List Char → List (List Char)
  | 0, _ => []
  | _, [] => []
  | fuel + 1, c :: rest =>
    match simpleHere? (c :: rest) with
    | some (name, after) => name :: simpleNames fuel after
    | none => simpleNames fuel rest

/-- A placeholder with a pattern. -/
structure Pattern where
  name : List Char
  pattern : List Char

/-- The placeholder with a pattern as it is written. -/
def Pattern.source (p : Pattern) : List Char := '\x7b' :: (p.name ++ '=' :: (p.pattern ++ ['\x7d']))

/-- The placeholder with a pattern that starts a text. -/
def patternHere? : List Char → Option Pattern
  | '\x7b' :: rest =>
    let name := rest.takeWhile fun c => c ≠ '=' ∧ c ≠ '\x7b' ∧ c ≠ '\x7d'
    match name.isEmpty, rest.drop name.length with
    | false, '=' :: tail =>
      let pattern := tail.takeWhile fun c => c ≠ '\x7b' ∧ c ≠ '\x7d'
      match pattern.isEmpty, tail.drop pattern.length with
      | false, '\x7d' :: _ => some ⟨name, pattern⟩
      | _, _ => none
    | _, _ => none
  | _ => none

/-- The first placeholder with a pattern. -/
def pattern? : List Char → Option Pattern
  | [] => none
  | c :: rest => (patternHere? (c :: rest)).or (pattern? rest)

/-- A name between braces. -/
def placeholder (name : List Char) : List Char := '\x7b' :: (name ++ ['\x7d'])

/-- The names of the resources in the parts of a pattern, and the parts with a placeholder after
each collection. -/
def expandParts (resource : List Char → List Char) :
    List (List Char) → List (List Char) × List (List Char)
  | collection :: _ :: rest =>
    let name := resource collection
    let (names, parts) := expandParts resource rest
    (name :: names, collection :: placeholder name :: parts)
  | parts => ([], parts)

/-- The parameter of a resource. -/
def resourceParameter (name : List Char) : Parameter :=
  let name := String.ofList name
  { name
    place := .path
    description := "The " ++ name ++ " id."
    required := true
    schema := some Schema.string }

end Template

/-- What a path template becomes. -/
structure ExpandedPath where
  parameters : List Parameter
  /-- The names in the placeholders, as they were written. -/
  covered : List String
  /-- The template with formatted names. -/
  path : String

namespace Config

variable (config : Config) (registry : Registry)

/-- The name of a path segment. -/
def segmentName (message : Option Message) (name : List Char) : List Char :=
  (config.pathName message (String.ofList name)).toList

/-- The parameter of a simple placeholder. -/
def placeholderParameter (message : Option Message) (name : List Char) : Build Parameter := do
  let formatted := String.ofList (config.segmentName message name)
  match message.bind (·.field? (String.ofList name)) with
  | some field =>
    let schema ← config.schemaOfField registry field
    let description ← Build.comment field.description
    return { name := formatted, place := .path, description, required := true
             schema := some (schema.getD Schema.string) }
  | none =>
    return { name := formatted, place := .path, description := "", required := true
             schema := some Schema.string }

/-- Write the formatted names into a template, one placeholder after the other: each time the first
placeholder of the name is replaced. -/
def formatPlaceholders (message : Option Message) (path : List Char)
    (names : List (List Char)) : List Char :=
  names.foldl (fun path name => Text.replaceFirst (Template.placeholder name)
    (Template.placeholder (config.segmentName message name)) path) path

/-- The path and the parameters of a placeholder with a pattern, if there is one. -/
def expandPattern (message : Option Message) (path : List Char) : ExpandedPath :=
  match Template.pattern? path with
  | none => ⟨[], [], String.ofList path⟩
  | some found =>
    let resource (collection : List Char) : List Char :=
      (singular (String.ofList (config.segmentName message collection))).toList
    let (names, parts) := Template.expandParts resource (Text.cutAt '/' found.pattern)
    { parameters := names.map Template.resourceParameter
      covered := [String.ofList found.name]
      path := String.ofList
        (Text.replaceFirst found.source (Text.joinWith ['/'] parts) path) }

/-- Expand a path template for an input message. -/
def expandPath (path : String) (message : Option Message) : Build ExpandedPath := do
  let names := Template.simpleNames path.length path.toList
  let parameters ← names.mapM (config.placeholderParameter registry message)
  let formatted := config.formatPlaceholders message path.toList names
  let expanded := config.expandPattern message formatted
  return { parameters := parameters ++ expanded.parameters
           covered := names.map String.ofList ++ expanded.covered
           path := expanded.path }

end Config

end ServiceDoc
