import ServiceDoc.Document.Assemble

/-!
# Texts that are bytes

Where a request should have a text it can have bytes that are none. Such a raw text stands in the
definitions as a message would show its bytes. It can be part of longer names, and a document holds
it as bytes where it stands alone; where a text has to be searched or taken apart, the run ends.
-/

namespace ServiceDoc

/-- Raw texts as they are shown, with their bytes. -/
abbrev RawTexts := List (String × List UInt8)

/-- The comments before the definitions of a file. -/
def SourceFile.comments (file : SourceFile) : List Comment :=
  (file.messages.flatMap fun message =>
    message.comment :: message.fields.map MessageField.comment) ++
  (file.enums.flatMap fun enum => enum.comment :: enum.values.map EnumValue.comment) ++
  (file.services.flatMap fun service => service.comment :: service.methods.map Method.comment)

/-- The type that a notice says to be not defined. -/
def Notice.unresolvedType? : Notice → Option String
  | .unresolvedInput _ type | .unresolvedMessage type _ | .unresolvedEnum type _ |
    .unresolvedParameter type _ => some type
  | _ => none

namespace RawTexts

variable (raw : RawTexts)

/-- Whether a text is a raw one. -/
def has (text : String) : Bool := (raw.lookup text).isSome

/-- Whether a comment before a definition is raw; all of them are taken apart. -/
def isInComments (registry : Registry) : Bool :=
  registry.files.any fun file => file.comments.any fun comment => raw.has comment.raw

/-- Whether a comment of a whole file is raw. -/
def isInFileComments (file : SourceFile) : Bool :=
  match SourceInfo.fileComments file.locations with
  | .ok comments => comments.any raw.has
  | .error _ => false

/-- Whether a message has a field whose name in JSON would follow from a raw text. -/
def isInFieldNames (message : Message) : Bool :=
  message.fields.any fun field => raw.has field.name && field.definition.jsonName == ""

/-- Whether the operation of a binding needs a raw text: as the name of a type, as a tag, or for the
names of parameters. -/
def isInBinding (registry : Registry) (binding : Config.Binding) : Bool :=
  let method := binding.method.definition
  match registry.message? method.input with
  | none => false
  | some input =>
    binding.rule.verb.isSupported &&
      (raw.has method.output || raw.has binding.service.name ||
        (binding.rule.body != "*" && raw.isInFieldNames input))

/-- Whether a file has a binding that needs a raw text. -/
def isInBindings (config : Config) (registry : Registry) (file : SourceFile) : Bool :=
  (file.services.filter config.admits).any fun service =>
    (Config.bindings [] service).any (raw.isInBinding registry)

/-- Whether a document refers to a schema with a raw name. -/
def isInSchemas (document : Element) : Bool :=
  ((document.one? "components").any fun components =>
    (components.table "schemas").keys.any fun
      | .string name => raw.has name
      | _ => false)

/-- Whether building the document of files has needed a raw text. -/
def spoils (config : Config) (registry : Registry) (files : List SourceFile)
    (built : Reported Failure Element) : Bool :=
  files.any (fun file => raw.isInFileComments file || raw.isInBindings config registry file) ||
    built.notices.any (fun notice => notice.unresolvedType?.any raw.has) ||
    built.outcome.toOption.any raw.isInSchemas

/-- A scalar with the bytes in the place of a raw text. -/
def restoredScalar : Scalar → Scalar
  | .string text => ((raw.lookup text).map Scalar.bytes).getD (.string text)
  | scalar => scalar

mutual
/-- A value with the bytes in the places of raw texts. -/
def restored : Value → Value
  | .scalar value => .scalar (raw.restoredScalar value)
  | .array mark items => .array mark (restoredItems items)
  | .pair mark first second => .pair mark (restored first) (restored second)
  | .object mark entries => .object mark (restoredEntries entries)
  | .set mark members => .set mark (members.map raw.restoredScalar)
  | .enclosing shape mark => .enclosing shape mark

/-- Restore the items of a sequence. -/
def restoredItems : List Value → List Value
  | [] => []
  | item :: items => restored item :: restoredItems items

/-- Restore the keys and the values of a mapping. -/
def restoredEntries : Entries Value → Entries Value
  | [] => []
  | (key, value) :: entries => (raw.restoredScalar key, restored value) :: restoredEntries entries
end

end RawTexts

end ServiceDoc
