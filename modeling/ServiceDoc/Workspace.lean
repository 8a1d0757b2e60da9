import ServiceDoc.Failure

/-!
# The workspace of a build

While a document is built, the workspace holds the document so far, the names of the component
schemas that it refers to, those whose schemas are done, and the notices. What a step changed stays
changed when a later step fails.
-/

namespace ServiceDoc

/-- The state of a build. -/
structure Workspace where
  document : Element
  /-- The names of the schemas that are referred to, in order of the first reference. -/
  required : List String := []
  /-- The names of the schemas that are done, the latest first. -/
  finished : List String := []
  notices : List Notice := []

/-- A step of a build. -/
abbrev Build := EStateM Failure Workspace

namespace Build

/-- Give a notice. -/
def report (notice : Notice) : Build Unit :=
  modify fun work => { work with notices := work.notices ++ [notice] }

/-- Stop the build. -/
def fail {α : Type} (failure : Failure) : Build α := throw failure

/-- Use the outcome of reading a comment. -/
def comment {α : Type} (outcome : Except CommentError α) : Build α :=
  match outcome with
  | .ok value => pure value
  | .error error => throw (.comment error)

/-- Use what was loaded from the annotation of a definition. -/
def annotated {α : Type} (place : String) (loaded : Loading α) : Build α := do
  modify fun work => { work with notices := work.notices ++ loaded.notices }
  match loaded.outcome with
  | .ok value => pure value
  | .error error => throw (.payload place error)

/-- Change the document. -/
def modifyDocument (change : Element → Element) : Build Unit :=
  modify fun work => { work with document := change work.document }

/-- Change the document by a step that can fail. -/
def changeDocument (change : Element → Except Failure Element) : Build Unit := do
  match change (← get).document with
  | .ok document => modifyDocument fun _ => document
  | .error failure => throw failure

/-- Refer to a component schema. -/
def require (name : String) : Build Unit :=
  modify fun work =>
    if work.required.contains name then work
    else { work with required := work.required ++ [name] }

end Build

namespace Workspace

/-- Whether a schema is referred to and not done. -/
def isPending (work : Workspace) (name : String) : Bool :=
  work.required.contains name && !work.finished.contains name

/-- The components of a document with a schema set. -/
def putSchema (document : Element) (name : String) (schema : Element) : Element :=
  let components := (document.one? "components").getD (.empty .components)
  let schemas := (components.table "schemas").put (.string name) schema
  document.set "components" (.one (components.set "schemas" (.table schemas)))

end Workspace

/-- Add a component schema unless one of its name is done, and say whether it was added. -/
def Build.addSchema (name : String) (schema : Element) : Build Bool := do
  if (← get).finished.contains name then return false
  modify fun work => { work with
    finished := name :: work.finished
    document := Workspace.putSchema work.document name schema }
  return true

end ServiceDoc
