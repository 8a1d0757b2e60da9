import ServiceDoc.Failure
import ServiceDoc.OpenApi.Merge
import ServiceDoc.Schema.WellKnown
import ServiceDoc.Text.Blank
import ServiceDoc.Text.Pieces

/-!
# Shared data of operations

What a service says about all its operations is added to each of them. Afterwards header parameters
without a schema are texts, and tags `key=value` become extensions.
-/

namespace ServiceDoc

namespace Operation

/-- Append to a field that holds values. -/
def appendList (operation : Element) (key : String) (items : List Value) : Element :=
  operation.set key (.list (operation.list key ++ items))

/-- Append to a field that holds elements. -/
def appendMany (operation : Element) (key : String) (elements : List Element) : Element :=
  operation.set key (.many (operation.many key ++ elements))

/-- Add what a service says about its operations; the way tells copies apart. -/
def share (way : List Nat) (shared operation : Element) : Element :=
  let stamp (position : Nat) : Mark := stampOf (way ++ [position])
  let parameters := stampedMany (stamp 0) (shared.many "parameters")
  let extensions := Value.stampedEntries (stamp 1) shared.extensions
  let servers := stampedMany (stamp 2) (shared.many "servers")
  let security := Value.stampedItems (stamp 3) (shared.list "security")
  let withParameters := appendMany operation "parameters" parameters
  let extended := withParameters.withExtensions
    (Entries.putAll withParameters.extensions extensions)
  let tagged := appendList extended "tags" (shared.list "tags")
  let served := appendMany tagged "servers" servers
  let secured := appendList served "security" security
  match shared.one? "externalDocs" with
  | none => secured
  | some docs =>
    let current := (secured.one? "externalDocs").getD (.empty .externalDocs)
    secured.set "externalDocs" (.one (current.mergeAt (way ++ [4]) docs))

/-- Give header parameters without a schema the schema of a text. -/
def completeHeaders (operation : Element) : Element :=
  let complete (parameter : Element) : Element :=
    let isHeader := match parameter.value? "in" with
      | some (.scalar (.string place)) => place == "header"
      | _ => false
    match isHeader, parameter.one? "schema" with
    | true, none => parameter.set "schema" (.one Schema.string)
    | _, _ => parameter
  match operation.many "parameters" with
  | [] => operation
  | parameters => operation.set "parameters" (.many (parameters.map complete))

/-- A tag `key=value` as key and value, both trimmed; `none` if the tag has no equals sign. -/
def cutTag : Value → Except Failure (Option (Scalar × Value))
  | .scalar (.string tag) =>
    if tag.toList.contains '=' then
      let (key, value) := Text.cutOnce '=' tag.toList
      .ok (some (.string (String.ofList (Text.trim key)),
        .string (String.ofList (Text.trim value))))
    else .ok none
  | .scalar (.surrogates codes) => .ok
      (if codes.contains 61 then
        some (.ofCodes (Text.trimCodes (codes.takeWhile (· ≠ 61))),
          .scalar (.ofCodes (Text.trimCodes ((codes.dropWhile (· ≠ 61)).drop 1))))
      else none)
  | .array mark items =>
    if items.any fun item => item.string? == some "=" then .error (.tagNotCut (.array mark items))
    else .ok none
  | .object mark entries =>
    if Entries.contains entries (.string "=") then .error (.tagNotCut (.object mark entries))
    else .ok none
  | tag => .error (.tagNotText tag)

/-- Move tags `key=value` to the extensions, one after the other; the tags that stay are the outcome
unless a tag is no text. -/
def moveTags (extensions : Entries Value) :
    List Value → Entries Value × Except Failure (List Value)
  | [] => (extensions, .ok [])
  | tag :: tags =>
    match cutTag tag with
    | .error failure => (extensions, .error failure)
    | .ok (some (key, value)) => moveTags (Entries.put extensions key value) tags
    | .ok none =>
      let (moved, kept) := moveTags extensions tags
      (moved, kept.map (tag :: ·))

/-- Move tags `key=value` to the extensions. After a failure the tags are as they were. -/
def separateTags (operation : Element) : Element × Option Failure :=
  match moveTags operation.extensions (operation.list "tags") with
  | (extensions, .ok tags) =>
    ((operation.withExtensions extensions).set "tags" (.list tags), none)
  | (extensions, .error failure) => (operation.withExtensions extensions, some failure)

end Operation

end ServiceDoc
