import ServiceDoc.Config.Options
import ServiceDoc.Value.Part

/-!
# Options as values

Options can be given as a mapping from their names, and shown as one; what is unset is nothing.
-/

namespace ServiceDoc.Options

/-- The names of the options. -/
def names : List String := [
  "version", "title", "description", "naming", "fq_schema_naming", "enum_type", "circular_depth",
  "default_response", "output_mode", "output_format", "path_prefix", "services", "base"]

/-- A value, or nothing. -/
def orNull {α : Type} (value : α → Value) (part : Option α) : Value :=
  (part.map value).getD .null

/-- The mapping that shows options. -/
def toValue (options : Options) : Value :=
  let values : List Value := [
    orNull .string options.version,
    orNull .string options.title,
    orNull .string options.description,
    orNull .string options.naming,
    orNull .bool options.qualifiedNames,
    orNull .string options.enumStyle,
    orNull .int options.depth,
    orNull .bool options.defaultResponse,
    orNull .string options.outputMode,
    orNull .string options.format,
    orNull .string options.pathPrefix,
    orNull (fun services => .list (services.map .string)) options.services,
    orNull .string options.base]
  .map ((names.map Scalar.string).zip values)

/-- The options that a mapping gives, which has no other names. -/
def ofValue (value : Value) : Except ConfigError Options := do
  let given := (value.entries?.getD []).filterMap fun entry =>
    match entry.1 with
    | .string name => some name
    | _ => none
  let unknown := given.filter fun name => !names.contains name
  if !unknown.isEmpty then
    throw (.unknownOptions (unknown.mergeSort fun a b => !decide (b < a)))
  return {
    version := value.text? "version"
    title := value.text? "title"
    description := value.text? "description"
    naming := value.text? "naming"
    qualifiedNames := (value.at? "fq_schema_naming").bind Value.truth?
    enumStyle := value.text? "enum_type"
    depth := (value.at? "circular_depth").bind Value.integer?
    defaultResponse := (value.at? "default_response").bind Value.truth?
    outputMode := value.text? "output_mode"
    format := value.text? "output_format"
    pathPrefix := value.text? "path_prefix"
    services := (value.at? "services").map fun list => list.items.map Value.text
    base := value.text? "base" }

end ServiceDoc.Options
