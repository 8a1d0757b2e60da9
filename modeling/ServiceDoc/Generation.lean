import ServiceDoc.Config.Options
import ServiceDoc.Config.Parameter
import ServiceDoc.Document.Assemble
import ServiceDoc.Document.Base
import ServiceDoc.Document.Raw
import ServiceDoc.Document.Render
import ServiceDoc.Document.Ways

/-!
# Generating the documents of a request

A request names the files to describe among all that they depend on. They are described in one
document together or each in its own. An error of the caller is explained in the response.
-/

namespace ServiceDoc

/-- What is to be generated. -/
structure Request where
  /-- The names of the files to describe. -/
  fileNames : List String
  parameter : String
  /-- All files, those that others depend on first. -/
  files : List FileDefinition
  /-- Texts among all these that are bytes. -/
  raw : RawTexts := []

/-- A file that was generated. -/
structure OutputFile where
  name : String
  /-- The code points of its text. -/
  content : List Nat
  deriving DecidableEq, Repr

/-- Whether code points are characters. -/
def isWritable (codes : List Nat) : Bool := codes.all Text.isCharacter

/-- What a run answers. -/
structure Response where
  /-- The code points of why nothing was generated. -/
  error : Option (List Nat)
  files : List OutputFile
  deriving DecidableEq, Repr

/-- Why a run ends without documents. -/
inductive GenerationError where
  /-- The parameter is wrong. -/
  | config (error : ConfigError)
  /-- The base document can not be used. -/
  | base (error : BaseError)
  /-- A document can not be built. -/
  | build (failure : Failure)
  /-- A document can not be written. -/
  | write (error : WriteError)
  /-- A document or an explanation holds half a character. -/
  | brokenText
  /-- Bytes stand where a text has to be taken apart. -/
  | notText

/-- Whether a failure is explained to the caller. The other ones end the run. -/
def Failure.isExplained : Failure → Bool
  | .comment .longInteger | .comment .tooDeep => false
  | .comment _ | .payload _ (.misshapen _ _ _) => true
  | _ => false

namespace GenerationError

/-- The code points of the explanation of an error of the caller. -/
def explanation? : GenerationError → Option (List Nat)
  | config error => some (Text.codes error.message)
  | base error => if error.isExplained then some error.message else none
  | build failure => if failure.isExplained then some failure.message else none
  | write _ | brokenText | notText => none

end GenerationError

/-- The name of the document of one file. -/
def outputName (file : String) (format : Format) : String :=
  let ending := ".proto".toList
  let text := file.toList
  let stem := if ending.isSuffixOf text then text.take (text.length - ending.length) else text
  String.ofList stem ++ ".openapi." ++ format.word

/-- The name of the document of all files. -/
def mergedName (format : Format) : String := "openapi." ++ format.word

/-- The parameter that says which notices are shown; it is no option. -/
def thresholdParameter : String := "log_level"

/-- Generate the document of some files; texts can be bytes. -/
def Config.generateFile (config : Config) (registry : Registry) (raw : RawTexts)
    (base : Option Element) (name : String) (files : List SourceFile) :
    Reported GenerationError OutputFile := do
  if config.hasLongWay registry files then Reported.fail (.build .endless)
  let built := config.buildDocument registry files base
  if raw.spoils config registry files built then Reported.fail .notText
  let document ← ⟨built.outcome.mapError .build, built.notices⟩
  let value ← Reported.ofExcept ((config.format.value document).mapError .write)
  let content ← Reported.ofExcept ((config.format.write (raw.restored value)).mapError .write)
  return { name, content }

/-- The options of parameters, decided. -/
def Parameters.config (parameters : Parameters) : Except ConfigError Config := do
  (← Options.ofParameters (parameters.without thresholdParameter)).toConfig

/-- Load the base document of a configuration. -/
def Config.loadBase (config : Config) (files : Files) :
    Reported GenerationError (Option Element) :=
  match config.base with
  | none => pure none
  | some path => do
    let loaded := files.loadBase path
    let document ← ⟨loaded.outcome.mapError .base, loaded.notices⟩
    return some document

namespace Request

/-- The definitions of a request. -/
def registry (request : Request) : Registry := .ofFiles request.fileNames request.files

/-- Generate the documents of a request under given parameters. -/
def generate (request : Request) (parameters : Parameters) (files : Files) :
    Reported GenerationError (List OutputFile) := do
  let config ← Reported.ofExcept (parameters.config.mapError .config)
  let base ← config.loadBase files
  let registry := request.registry
  if request.raw.isInComments registry then Reported.fail .notText
  match config.outputMode with
  | .sourceRelative =>
    registry.generatedFiles.mapM fun file =>
      config.generateFile registry request.raw base (outputName file.name config.format) [file]
  | .merged =>
    let file ← config.generateFile registry request.raw base (mergedName config.format)
      registry.generatedFiles
    return [file]

/-- The response to a request, in which an error of the caller is explained. -/
def respond (request : Request) (parameters : Parameters) (files : Files) :
    Reported GenerationError Response :=
  let generated := request.generate parameters files
  match generated.outcome with
  | .ok outputs =>
    ⟨if outputs.all fun file => isWritable file.content then .ok { error := none, files := outputs }
      else .error .brokenText, generated.notices⟩
  | .error error =>
    match error.explanation? with
    | none => ⟨.error error, generated.notices⟩
    | some text =>
      ⟨if isWritable text then .ok { error := some text, files := [] } else .error .brokenText,
        generated.notices ++ [.generationFailed text]⟩

end Request

end ServiceDoc
