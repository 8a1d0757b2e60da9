import ServiceDoc.Value.Sorting
import ServiceDoc.Workspace

/-!
# The order of a document

The tags of a finished document are sorted by name, its paths and component schemas by key. Keys of
kinds that have no common order are a failure.
-/

namespace ServiceDoc

namespace Order

/-- The name that a tag is sorted by. -/
def tagKey (tag : Element) : Value :=
  match tag.value? "name" with
  | some name => if name.isTruthy then name else .string ""
  | none => .string ""

/-- Sort the tags of a document. -/
def sortTags (document : Element) : Except Disorder Element := do
  return document.set "tags" (.many (← sortBy tagKey (document.many "tags")))

/-- Sort the entries of a mapping by their keys. -/
def sortEntries (entries : Entries Element) : Except Disorder (Entries Element) :=
  sortBy (fun entry => .scalar entry.1) entries

/-- Sort the paths of a document. -/
def sortPaths (document : Element) : Except Disorder Element := do
  return document.set "paths" (.table (← sortEntries (document.table "paths")))

/-- Sort the component schemas of a document. -/
def sortSchemas (document : Element) : Except Disorder Element := do
  let components := (document.one? "components").getD (.empty .components)
  let schemas ← sortEntries (components.table "schemas")
  return document.set "components" (.one (components.set "schemas" (.table schemas)))

/-- Change the document by a step that can fail for want of an order. -/
def apply (step : Element → Except Disorder Element) : Build Unit :=
  Build.changeDocument fun document => (step document).mapError Failure.ofDisorder

/-- Sort a document. -/
def sort : Build Unit := do
  apply sortTags
  apply sortPaths
  apply sortSchemas

end Order

end ServiceDoc
