import ServiceDoc.Notice
import ServiceDoc.OpenApi.Element
import ServiceDoc.Value.Closed

/-!
# Loading elements

An element is loaded from a mapping. Keys that start with `x-` are extensions, keys that the kind
does not know are skipped with a notice, and the values of the other keys must have the shape of
their field at every depth. A mapping with the key `$ref` in the place of a schema is a reference.

What an element takes over from a container that holds itself stands on its own. Where such a
container is met again inside of itself, it is loaded again; the number of times is limited.
-/

namespace ServiceDoc

/-- What a field expected. -/
inductive Expected where
  | mapping
  | sequence
  | boolean
  deriving DecidableEq, Repr

/-- The word for what was expected. -/
def Expected.word : Expected → String
  | mapping => "mapping"
  | sequence => "sequence"
  | boolean => "boolean"

/-- Why a value is no element. -/
inductive LoadError where
  /-- The value of a field has another shape. -/
  | misshapen (place : List Nat) (expected : Expected) (value : Value)
  | keyNotText (key : Scalar)
  /-- An element holds itself, or elements are too deep inside of each other. -/
  | endless
  /-- An integer is too long to be shown. -/
  | longInteger
  deriving Repr

/-- The code points of the wording of an error. -/
def LoadError.message : LoadError → List Nat
  | misshapen place expected value =>
    place ++ Text.codes (": expected a " ++ expected.word ++ ", got " ++ value.shown)
  | keyNotText key => Text.codes ("the key " ++ key.shown ++ " is no text")
  | endless => Text.codes "elements go on inside of each other"
  | longInteger => Text.codes "an integer is too long to be shown"

/-- Loading an element. -/
abbrev Loading := Reported LoadError

/-- Whether a text starts as the key of an extension does. -/
def isExtensionKey (key : String) : Bool :=
  match key.toList with
  | 'x' :: '-' :: _ => true
  | _ => false

/-- What the key of an entry says about its value. -/
inductive EntryRole where
  /-- The value belongs to a field. -/
  | field (field : Field)
  | extension
  /-- The value is skipped. -/
  | unknown
  deriving DecidableEq, Repr

/-- The role of a key in an element of a kind. -/
def Kind.role (kind : Kind) : Scalar → Except LoadError EntryRole
  | .string key =>
    if isExtensionKey key then .ok .extension
    else match kind.field? key with
      | some field => .ok (.field field)
      | none => .ok .unknown
  | .surrogates codes => .ok (if codes.take 2 = [120, 45] then .extension else .unknown)
  | key => .error (.keyNotText key)

/-- The kind of element that a mapping is loaded as in the place of a kind. -/
def Kind.loadedFrom (kind : Kind) (entries : Entries Value) : Kind :=
  if kind = .schema ∧ entries.contains (.string "$ref") then .reference else kind

/-- The version of the OpenAPI format that documents follow. -/
def openapiVersion : String := "3.0.3"

/-- Set a field unless it is set. -/
def setDefault (fields : List (String × Content)) (key : String) (content : Content) :
    List (String × Content) :=
  if (fields.lookup key).isSome then fields else fields ++ [(key, content)]

/-- An element of given fields. A document always names its format and has information about
itself and components. -/
def Element.create (kind : Kind) (fields : List (String × Content)) (extensions : Entries Value) :
    Element :=
  if kind = .document then
    let named := setDefault fields "openapi" (.value (.string openapiVersion))
    let informed := setDefault named "info" (.one (.empty .info))
    .mk kind (setDefault informed "components" (.one (.empty .components))) extensions
  else .mk kind fields extensions

/-- A value in the place of one of another shape. -/
def misplaced {α : Type} (place : List Nat) (expected : Expected) (value : Value) : Loading α :=
  if value.holdsLong then .fail .longInteger else .fail (.misshapen place expected value)

/-- The place of the value of a key, unless the key is too long to be shown. -/
def placeOfKey (place : List Nat) (key : Scalar) : Loading (List Nat) :=
  if key.isLong then .fail .longInteger else pure (place ++ Text.codes "." ++ key.plain)

/-- Fields and extensions that are loaded. -/
structure Parts where
  /-- The contents of the fields that are set. -/
  fields : List (String × Content) := []
  extensions : Entries Value := []

/-- Loads what a field of a shape at a place holds from a value on its own. -/
abbrev ContentLoader := List Nat → FieldShape → Value → Loading (Option Content)

mutual
/-- Load the entries of a mapping as an element of a kind. -/
def loadParts (again : ContentLoader) (around : Value.Surroundings) (kind : Kind) :
    List (Scalar × Value) → Loading Parts
  | [] => pure {}
  | (key, value) :: entries => do
    match ← Reported.ofExcept (kind.role key) with
    | .extension => do
      let parts ← loadParts again around kind entries
      return { parts with extensions := (key, value.closed around) :: parts.extensions }
    | .unknown => do
      Reported.report (.unknownKey kind key)
      loadParts again around kind entries
    | .field field => do
      let content ← loadContent again around (Text.codes field.key) field.shape value
      let parts ← loadParts again around kind entries
      match content with
      | some content => return { parts with fields := (field.key, content) :: parts.fields }
      | none => return parts

/-- Load what a field of a shape holds; an empty field can be left unset. -/
def loadContent (again : ContentLoader) (around : Value.Surroundings) (place : List Nat)
    (shape : FieldShape) : Value → Loading (Option Content)
  | .scalar scalar =>
    match shape, scalar with
    | .value, .null => pure none
    | .value, _ => pure (some (.value (.scalar scalar)))
    | .flag, .bool true => pure (some .flag)
    | .flag, .bool false => pure none
    | .flag, _ => misplaced place .boolean (.scalar scalar)
    | .boolOrOne _, .bool b => pure (some (.value (.bool b)))
    | .list, _ | .many _, _ => misplaced place .sequence (.scalar scalar)
    | _, _ => misplaced place .mapping (.scalar scalar)
  | .array mark items =>
    let whole := Value.array mark items
    let inside := around.enter mark whole
    match shape with
    | .value => pure (some (.value (whole.closed around)))
    | .flag => misplaced place .boolean (whole.closed around)
    | .list => pure (some (.list (items.map (Value.closed inside))))
    | .many kind => do
      let elements ← loadMany again inside place kind items
      return some (.many elements)
    | _ => misplaced place .mapping (whole.closed around)
  | .object mark entries =>
    let whole := Value.object mark entries
    let inside := around.enter mark whole
    match shape with
    | .value => pure (some (.value (whole.closed around)))
    | .flag => misplaced place .boolean (whole.closed around)
    | .list | .many _ => misplaced place .sequence (whole.closed around)
    | .map => pure (some (.map (entries.map fun (key, value) => (key, value.closed inside))))
    | .table kind => do
      let elements ← loadTable again inside place kind entries
      return some (.table elements)
    | .one kind | .boolOrOne kind => do
      let loaded := kind.loadedFrom entries
      let parts ← loadParts again inside loaded entries
      return some (.one (.create loaded parts.fields parts.extensions))
  | .enclosing inner mark => again place shape ((Value.enclosing inner mark).closed around)
  | value =>
    match shape with
    | .value => pure (some (.value (value.closed around)))
    | .flag => misplaced place .boolean (value.closed around)
    | .list | .many _ => misplaced place .sequence (value.closed around)
    | _ => misplaced place .mapping (value.closed around)

/-- Load the items of a sequence of elements. -/
def loadMany (again : ContentLoader) (around : Value.Surroundings) (place : List Nat)
    (kind : Kind) : List Value → Loading (List Element)
  | [] => pure []
  | item :: items => do
    match ← loadContent again around place (.one kind) item with
    | some (.one element) => do
      let elements ← loadMany again around place kind items
      return element :: elements
    | _ => loadMany again around place kind items

/-- Load the values of a mapping to elements. -/
def loadTable (again : ContentLoader) (around : Value.Surroundings) (place : List Nat)
    (kind : Kind) : List (Scalar × Value) → Loading (List (Scalar × Element))
  | [] => pure []
  | (key, value) :: entries => do
    let inner ← placeOfKey place key
    match ← loadContent again around inner (.one kind) value with
    | some (.one element) => do
      let elements ← loadTable again around place kind entries
      return (key, element) :: elements
    | _ => loadTable again around place kind entries
end

/-- Load containers that are met again, a number of times inside of each other. -/
def loadAgain : (times : Nat) → ContentLoader
  | 0, _, _, _ => .fail .endless
  | times + 1, place, shape, value => loadContent (loadAgain times) [] place shape value

/-- How many times containers that are met again are loaded inside of each other. -/
def maxRounds : Nat := 1000

/-- Load the entries of a mapping of a mark in the place of an element of a kind. -/
def Element.loadMarked (kind : Kind) (mark : Mark) (entries : Entries Value) : Loading Element := do
  let loaded := kind.loadedFrom entries
  let around := Value.Surroundings.enter [] mark (.object mark entries)
  let parts ← loadParts (loadAgain maxRounds) around loaded entries
  return .create loaded parts.fields parts.extensions

/-- Load the entries of a mapping in the place of an element of a kind. -/
def Element.load (kind : Kind) (entries : Entries Value) : Loading Element :=
  Element.loadMarked kind [] entries

end ServiceDoc
