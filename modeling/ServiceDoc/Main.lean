import ServiceDoc.Command.Run

/-!
# The program

Reads what the command needs, runs it, and writes what it leaves behind.
-/

namespace ServiceDoc.Program

/-- The cause of a failed reading. -/
def fileError : IO.Error → FileError
  | .permissionDenied .. => .denied
  | .inappropriateType .. => .directory
  | _ => .missing

/-- Read a file. -/
def readFile (path : String) : IO (Except FileError (List UInt8)) := do
  try
    return .ok (← IO.FS.readBinFile path).toList
  catch error => return .error (fileError error)

/-- Read a stream to its end. -/
partial def readAll (stream : IO.FS.Stream) (before : ByteArray) : IO ByteArray := do
  let next ← stream.read 65536
  if next.isEmpty then return before else readAll stream (before ++ next)

/-- The files that were read, by their paths. -/
def filesOf (known : List (String × Except FileError (List UInt8))) : Files where
  read path := (known.lookup path).getD (.error .missing)

/-- How the command is used. -/
def usage : String :=
  "usage: protoc_gen_openapi [-h] [--log-level LEVEL] [--request REQUEST]\n" ++
  "levels: " ++ Text.join ", " (Level.choices.map Prod.fst) ++ "\n"

/-- What is said about an error that ends the command. -/
def complaint : CommandError → String
  | .badPath path => "No file has the path " ++ Text.quoted path
  | .notText => "The request holds a text that is not well formed"
  | .generation error =>
    (error.explanation?.map Text.spelled).getD "The documents can not be generated"

/-- Run the command. -/
def run (arguments : Arguments) : IO UInt32 := do
  let request ← arguments.requestPath?.mapM fun path => return (path, ← readFile path)
  let input ← match request with
    | none => pure (← readAll (← IO.getStdin) .empty).toList
    | some (_, content) => pure (content.toOption.getD [])
  let base ← (Wire.basePath? input).mapM fun path => return (path, ← readFile path)
  match arguments.run input (filesOf (request.toList ++ base.toList)) with
  | .error error =>
    IO.eprintln (complaint error)
    return 1
  | .ok result =>
    for notice in result.notices do IO.eprintln notice.line
    (← IO.getStdout).write ⟨result.output.toArray⟩
    return UInt32.ofNat result.exitCode

end ServiceDoc.Program

/-- Answer the request that the arguments name. -/
def main (arguments : List String) : IO UInt32 := do
  match ServiceDoc.Arguments.parse ServiceDoc.requestSpellings arguments with
  | .ok parsed => ServiceDoc.Program.run parsed
  | .error refusal =>
    if refusal = .help then IO.print ServiceDoc.Program.usage
    else IO.eprint ServiceDoc.Program.usage
    return UInt32.ofNat refusal.exitCode
