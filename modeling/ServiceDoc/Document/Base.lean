import ServiceDoc.Files
import ServiceDoc.OpenApi.Depth
import ServiceDoc.Yaml.Read

/-!
# Base documents

A run can start from a document in a file, written as YAML or JSON.
-/

namespace ServiceDoc

/-- Why a base document can not be used. -/
inductive BaseError where
  /-- The file can not be read. -/
  | unreadable (path : String) (error : FileError)
  /-- No file can have this path. -/
  | badPath (path : String)
  | notText (path : String)
  /-- The text can not be read as YAML. -/
  | notYaml (path : String) (error : Yaml.ReadError)
  /-- The file holds something else than a mapping. -/
  | notMapping (path : String)
  /-- The mapping is no document. -/
  | invalid (path : String) (error : LoadError)
  deriving Repr

namespace BaseError

/-- The code points of the wording of an error. -/
def message : BaseError → List Nat
  | unreadable path error => Text.codes
    ("Unable to load base document " ++ path ++ ": " ++ error.message (plainPath path))
  | badPath path => Text.codes ("No file has the path " ++ Text.quoted path)
  | notText path => Text.codes ("Base document " ++ path ++ " is no text")
  | notYaml path _ => Text.codes ("Unable to load base document " ++ path ++ ": <yaml>")
  | notMapping path => Text.codes ("Base document " ++ path ++ " is not a mapping")
  | invalid path error =>
    Text.codes ("Invalid base document " ++ path ++ ": ") ++ error.message

/-- Whether an error is explained to the caller. The other ones end the run. -/
def isExplained : BaseError → Bool
  | unreadable _ _ | notYaml _ .malformed | notMapping _ | invalid _ (.misshapen _ _ _) => true
  | _ => false

end BaseError

/-- The value that a file holds. -/
def Files.value (files : Files) (path : String) : Except BaseError Value :=
  if path.contains '\x00' then .error (.badPath path)
  else match files.read (plainPath path) with
    | .error error => .error (.unreadable path error)
    | .ok bytes =>
      match Text.decodeUtf8 bytes with
      | none => .error (.notText path)
      | some text => (Yaml.read text).mapError (.notYaml path)

/-- Load the document that a file holds. -/
def Files.loadBase (files : Files) (path : String) : Reported BaseError Element :=
  match files.value path with
  | .error error => .fail error
  | .ok (.object mark entries) =>
    let loaded := (Element.loadMarked .document mark entries).limited
    ⟨loaded.outcome.mapError (.invalid path), loaded.notices⟩
  | .ok _ => .fail (.notMapping path)

end ServiceDoc
