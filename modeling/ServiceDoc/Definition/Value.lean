import ServiceDoc.Definition.Basic
import ServiceDoc.Value.Part

/-!
# Definitions as values

Definitions can be given as mappings from the names of their parts, with words for labels, types and
verbs. Parts that are missing are unset.
-/

namespace ServiceDoc

/-- The label of a word. -/
def FieldLabel.ofWord (word : String) : FieldLabel :=
  if word = "repeated" then .repeated else if word = "required" then .required else .optional

/-- The field that a value describes. -/
def FieldDefinition.ofValue (value : Value) : FieldDefinition where
  name := value.textAt "name"
  label := .ofWord (value.textAt "label")
  type := (FieldType.ofWord? (value.textAt "type")).getD .double
  typeName := value.textAt "type_name"
  jsonName := value.textAt "json_name"
  deprecated := value.boolAt "deprecated"
  behaviors := value.intsAt "behaviors"

/-- The enumeration that a value describes. -/
def EnumDefinition.ofValue (value : Value) : EnumDefinition where
  name := value.textAt "name"
  values := (value.listAt "values").map fun inner =>
    ⟨inner.textAt "name", inner.intAt "number"⟩

/-- The message that a value describes. -/
def MessageDefinition.ofValue (value : Value) : MessageDefinition :=
  { name := value.textAt "name"
    fields := (value.listAt "fields").map .ofValue
    messages := (value.listAt "messages").attach.map fun inner => ofValue inner.val
    enums := (value.listAt "enums").map .ofValue
    isMapEntry := value.boolAt "map_entry" }
termination_by sizeOf value
decreasing_by exact Value.sizeOf_listAt inner.property

/-- The rule that a value describes. -/
def RuleDefinition.ofValue (value : Value) : RuleDefinition where
  pattern := match value.text? "pattern" with
    | none => .unset
    | some "custom" => .custom
    | some verb => .verb verb (value.textAt "path")
  body := value.textAt "body"

/-- The method that a value describes. -/
def MethodDefinition.ofValue (value : Value) : MethodDefinition where
  name := value.textAt "name"
  input := value.textAt "input"
  output := value.textAt "output"
  rules := match value.at? "http" with
    | none => []
    | some rule => .ofValue rule :: (rule.listAt "additional").map .ofValue

/-- The service that a value describes. -/
def ServiceDefinition.ofValue (value : Value) : ServiceDefinition where
  name := value.textAt "name"
  defaultHost := value.textAt "default_host"
  methods := (value.listAt "methods").map .ofValue

/-- The comments that a value describes. -/
def Location.ofValue (value : Value) : Location where
  path := value.intsAt "path"
  span := value.intsAt "span"
  leading := value.textAt "leading"
  detached := value.textsAt "detached"

/-- The definition file that a value describes. -/
def FileDefinition.ofValue (value : Value) : FileDefinition where
  name := value.textAt "name"
  package := value.textAt "package"
  messages := (value.listAt "messages").map .ofValue
  enums := (value.listAt "enums").map .ofValue
  services := (value.listAt "services").map .ofValue
  locations := (value.listAt "locations").map .ofValue

end ServiceDoc
