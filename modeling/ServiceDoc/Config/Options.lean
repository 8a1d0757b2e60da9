import ServiceDoc.Config.Basic
import ServiceDoc.Text.Case
import ServiceDoc.Text.Integer
import ServiceDoc.Text.Pieces
import ServiceDoc.Text.Quoted

/-!
# Options

Options are settings that may still be unset, so that they can be layered. They are read from the
parameters of a run, completed by defaults, checked, and then decide a configuration.
-/

namespace ServiceDoc

/-- Why options decide no configuration. -/
inductive ConfigError where
  /-- There are no options of these names. -/
  | unknownOptions (names : List String)
  /-- There is no parameter of this name. -/
  | unknownParameter (name : String)
  /-- A parameter is no truth value. -/
  | notBoolean (name value : String)
  | notInteger (name value : String)
  | noVersion
  /-- An option has none of its values. -/
  | notAllowed (name : String) (allowed : List String) (value : String)
  /-- The expansion depth is not positive. -/
  | depthTooSmall
  deriving DecidableEq, Repr

/-- The wording of an error. -/
def ConfigError.message : ConfigError → String
  | unknownOptions names => "Unknown configuration options: " ++ Text.join ", " names
  | unknownParameter name => "Unknown plugin parameter: " ++ name
  | notBoolean name value => name ++ " must be a boolean, got " ++ Text.quoted value
  | notInteger name value => name ++ " must be an integer, got " ++ Text.quoted value
  | noVersion => "version is required"
  | notAllowed name allowed value =>
    name ++ " must be one of " ++ Text.join ", " allowed ++ ", got " ++ Text.quoted value
  | depthTooSmall => "circular_depth must be greater than 0"

namespace Naming

/-- The word for a naming. -/
def word : Naming → String
  | proto => "proto"
  | json => "json"

/-- All namings. -/
def all : List Naming := [proto, json]

end Naming

namespace EnumStyle

/-- The word for a style. -/
def word : EnumStyle → String
  | string => "string"
  | integer => "integer"

/-- All styles. -/
def all : List EnumStyle := [string, integer]

end EnumStyle

namespace OutputMode

/-- The word for a mode. -/
def word : OutputMode → String
  | merged => "merged"
  | sourceRelative => "source_relative"

/-- All modes. -/
def all : List OutputMode := [merged, sourceRelative]

end OutputMode

namespace Format

/-- The word for a format, which also ends file names. -/
def word : Format → String
  | yaml => "yaml"
  | json => "json"

/-- All formats. -/
def all : List Format := [yaml, json]

end Format

/-- Settings that can be unset. -/
structure Options where
  /-- The version of the described interface. -/
  version : Option String := none
  title : Option String := none
  description : Option String := none
  naming : Option String := none
  /-- Whether schema names start with the package. -/
  qualifiedNames : Option Bool := none
  /-- The word for the style of enumerations. -/
  enumStyle : Option String := none
  depth : Option Int := none
  /-- Whether operations describe the default error response. -/
  defaultResponse : Option Bool := none
  /-- The word for the output mode. -/
  outputMode : Option String := none
  format : Option String := none
  pathPrefix : Option String := none
  services : Option (List String) := none
  /-- The file of the base document. -/
  base : Option String := none
  deriving DecidableEq, Repr

namespace Options

/-- What options hold when nobody sets them. -/
def defaults : Options where
  version := some "1.0.0"
  title := some "API"
  description := some "Generated API"
  naming := some "proto"
  qualifiedNames := some false
  enumStyle := some "string"
  depth := some 2
  defaultResponse := some true
  outputMode := some "merged"
  format := some "yaml"
  pathPrefix := some ""
  services := some []

/-- Options that are set in the second layer win over those of the first. -/
def merge (lower upper : Options) : Options where
  version := upper.version <|> lower.version
  title := upper.title <|> lower.title
  description := upper.description <|> lower.description
  naming := upper.naming <|> lower.naming
  qualifiedNames := upper.qualifiedNames <|> lower.qualifiedNames
  enumStyle := upper.enumStyle <|> lower.enumStyle
  depth := upper.depth <|> lower.depth
  defaultResponse := upper.defaultResponse <|> lower.defaultResponse
  outputMode := upper.outputMode <|> lower.outputMode
  format := upper.format <|> lower.format
  pathPrefix := upper.pathPrefix <|> lower.pathPrefix
  services := upper.services <|> lower.services
  base := upper.base <|> lower.base

/-- Fill in what is unset. -/
def withDefaults (options : Options) : Options := defaults.merge options

/-- Refuse a set option that has none of the allowed values. -/
def checkWord (name : String) (allowed : List String) (value : Option String) :
    Except ConfigError Unit :=
  match value with
  | some word => if word ∈ allowed then .ok () else .error (.notAllowed name allowed word)
  | none => .ok ()

/-- Check the options that are set; the first that is wrong decides the error. -/
def validate (options : Options) : Except ConfigError Unit := do
  if options.version = some "" then throw .noVersion
  checkWord "naming" (Naming.all.map Naming.word) options.naming
  checkWord "enum_type" (EnumStyle.all.map EnumStyle.word) options.enumStyle
  checkWord "output_mode" (OutputMode.all.map OutputMode.word) options.outputMode
  checkWord "output_format" (Format.all.map Format.word) options.format
  if options.depth.any (· < 1) then throw .depthTooSmall

/-- Read a truth value in any letter case. -/
def readBool (name value : String) : Except ConfigError Bool :=
  let word := String.ofList (value.toList.flatMap Text.lower)
  if word ∈ ["true", "1", "yes"] then .ok true
  else if word ∈ ["false", "0", "no"] then .ok false
  else .error (.notBoolean name value)

/-- Read an integer. -/
def readInt (name value : String) : Except ConfigError Int :=
  match Text.integer? value with
  | some n => .ok n
  | none => .error (.notInteger name value)

/-- Read a list whose items are separated by semicolons; blank items are left out. -/
def readList (value : String) : List String :=
  ((Text.cutAt ';' value.toList).map Text.trim).filterMap fun item =>
    if item.isEmpty then none else some (String.ofList item)

/-- Set the option that a parameter names. -/
def setParameter (options : Options) (name value : String) : Except ConfigError Options :=
  match name with
  | "version" => .ok { options with version := some value }
  | "title" => .ok { options with title := some value }
  | "description" => .ok { options with description := some value }
  | "naming" => .ok { options with naming := some value }
  | "fq_schema_naming" =>
    (readBool name value).map fun b => { options with qualifiedNames := some b }
  | "enum_type" => .ok { options with enumStyle := some value }
  | "depth" => (readInt name value).map fun n => { options with depth := some n }
  | "default_response" =>
    (readBool name value).map fun b => { options with defaultResponse := some b }
  | "output_mode" => .ok { options with outputMode := some value }
  | "format" => .ok { options with format := some value }
  | "path_prefix" => .ok { options with pathPrefix := some value }
  | "services" => .ok { options with services := some (readList value) }
  | "base" => .ok { options with base := some value }
  | _ => .error (.unknownParameter name)

/-- The options that parameters set, one after the other. -/
def ofParameters (parameters : List (String × String)) : Except ConfigError Options :=
  parameters.foldlM (fun options (name, value) => options.setParameter name value) {}

/-- The configuration that valid options decide once the defaults are filled in. -/
def toConfig (options : Options) : Except ConfigError Config := do
  let full := options.withDefaults
  full.validate
  let depth := (full.depth.getD 2).toNat
  if positive : 0 < depth then
    return {
      version := full.version.getD ""
      title := full.title.getD ""
      description := full.description.getD ""
      naming := (Naming.all.find? fun n => full.naming = some n.word).getD .proto
      qualifiedNames := full.qualifiedNames.getD false
      enumStyle := (EnumStyle.all.find? fun s => full.enumStyle = some s.word).getD .string
      depth
      defaultResponse := full.defaultResponse.getD true
      outputMode := (OutputMode.all.find? fun m => full.outputMode = some m.word).getD .merged
      format := (Format.all.find? fun f => full.format = some f.word).getD .yaml
      pathPrefix := full.pathPrefix.getD ""
      services := full.services.getD []
      base := full.base.filter (· ≠ "")
      depth_pos := positive }
  else throw .depthTooSmall

/-- A list in parentheses, as messages show it. -/
def shownList (items : List String) : String :=
  match items with
  | [item] => "(" ++ Text.quoted item ++ ",)"
  | _ => "(" ++ Text.join ", " (items.map Text.quoted) ++ ")"

/-- A truth value as messages show it. -/
def shownBool (b : Bool) : String := if b then "True" else "False"

/-- The names and texts of the options that are set. -/
def shownFields (options : Options) : List (String × String) :=
  [("version", options.version.map Text.quoted),
    ("title", options.title.map Text.quoted),
    ("description", options.description.map Text.quoted),
    ("naming", options.naming.map Text.quoted),
    ("fq_schema_naming", options.qualifiedNames.map shownBool),
    ("enum_type", options.enumStyle.map Text.quoted),
    ("circular_depth", options.depth.map toString),
    ("default_response", options.defaultResponse.map shownBool),
    ("output_mode", options.outputMode.map Text.quoted),
    ("output_format", options.format.map Text.quoted),
    ("path_prefix", options.pathPrefix.map Text.quoted),
    ("services", options.services.map shownList),
    ("base", options.base.map Text.quoted)].filterMap fun (name, text) => text.map (name, ·)

/-- The options that are set, as messages show them. -/
def shown (options : Options) : String :=
  "Configuration(" ++
    Text.join ", " (options.shownFields.map fun (name, text) => name ++ "=" ++ text) ++ ")"

end Options

end ServiceDoc
