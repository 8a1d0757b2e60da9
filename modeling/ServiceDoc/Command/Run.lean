import ServiceDoc.Command.Arguments
import ServiceDoc.Wire.Request

/-!
# The command

The command reads a request, from a file if one is given and from its input otherwise, and writes
the response. Errors of the caller are reported; its exit code says whether there was one.
-/

namespace ServiceDoc

/-- What a command leaves behind. -/
structure CommandResult where
  exitCode : Nat
  output : List UInt8
  notices : List Notice
  deriving DecidableEq, Repr

/-- Why a command ends without a result. -/
inductive CommandError where
  /-- No file can have the path of the request. -/
  | badPath (path : String)
  /-- Bytes stand in the place of the parameter or of the name of a file to describe. -/
  | notText
  /-- The documents can not be generated. -/
  | generation (error : GenerationError)

/-- The result of a command that was stopped by an error of the caller. -/
def CommandResult.failed (notice : Notice) : CommandResult :=
  { exitCode := 1, output := [], notices := [notice] }

/-- The least level of the notices that are shown; without a parameter for it all are. -/
def Parameters.threshold (parameters : Parameters) : Except ConfigError Level :=
  match parameters.get? thresholdParameter with
  | none => .ok .debug
  | some word =>
    match Level.choices.lookup word with
    | some level => .ok level
    | none => .error (.notAllowed thresholdParameter (Level.choices.map Prod.fst) word)

/-- Answer a request. -/
def Request.command (request : Request) (files : Files) : Except CommandError CommandResult :=
  let parameters := Parameters.parse request.parameter
  if request.raw.has request.parameter then .error .notText
  else match parameters.threshold with
    | .error error => .ok (.failed (.commandFailed error.message))
    | .ok threshold =>
      if request.fileNames.any request.raw.has then .error .notText
      else
        let answered := request.respond parameters files
        match answered.outcome with
        | .error error => .error (.generation error)
        | .ok response =>
          .ok {
            exitCode := if response.error.isSome then 1 else 0
            output := Wire.response response
            notices := (.started request.fileNames :: answered.notices).filter fun notice =>
              threshold.number ≤ notice.level.number }

/-- The file of the request, if it is not read from the input. -/
def Arguments.requestPath? (arguments : Arguments) : Option String :=
  arguments.request.filter (· ≠ "")

/-- Run the command on an input. -/
def Arguments.run (arguments : Arguments) (input : List UInt8) (files : Files) :
    Except CommandError CommandResult :=
  let answer (bytes : List UInt8) : Except CommandError CommandResult :=
    match Wire.readRequest? bytes with
    | some request => request.command files
    | none => .ok (.failed .malformedRequest)
  match arguments.requestPath? with
  | none => answer input
  | some path =>
    if path.contains '\x00' then .error (.badPath path)
    else match files.read path with
      | .ok bytes => answer bytes
      | .error error => .ok (.failed (.commandFailed (error.message path)))

/-- The base document that a request names. -/
def Wire.basePath? (bytes : List UInt8) : Option String := do
  let request ← Wire.readRequest? bytes
  let config ← (Parameters.parse request.parameter).config.toOption
  config.base.map plainPath

end ServiceDoc
