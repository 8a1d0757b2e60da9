/-!
# Configuration

The settings of a run, all of them decided.
-/

namespace ServiceDoc

/-- How fields and schemas are named. -/
inductive Naming where
  /-- As the definition spells them. -/
  | proto
  | json
  deriving DecidableEq, Repr

/-- What stands for the values of an enumeration. -/
inductive EnumStyle where
  | string
  | integer
  deriving DecidableEq, Repr

/-- How many documents are written. -/
inductive OutputMode where
  /-- One for all files. -/
  | merged
  /-- One for each file. -/
  | sourceRelative
  deriving DecidableEq, Repr

/-- The format of a document. -/
inductive Format where
  | yaml
  | json
  deriving DecidableEq, Repr

/-- The settings of a run. -/
structure Config where
  /-- The version of the described interface. -/
  version : String
  /-- The title of the document; an empty one leaves the naming to a single service. -/
  title : String
  description : String
  /-- How fields and schemas are named. -/
  naming : Naming
  /-- Whether schema names start with the package. -/
  qualifiedNames : Bool
  /-- What stands for the values of an enumeration. -/
  enumStyle : EnumStyle
  /-- How often a field is expanded on one path of a query parameter. -/
  depth : Nat
  /-- Whether operations describe the default error response. -/
  defaultResponse : Bool
  /-- How many documents are written. -/
  outputMode : OutputMode
  format : Format
  pathPrefix : String
  /-- The full names of the services to describe; none stands for all. -/
  services : List String
  /-- The file of the base document. -/
  base : Option String
  /-- Every field is expanded at least once. -/
  depth_pos : 0 < depth
  deriving DecidableEq, Repr

end ServiceDoc
