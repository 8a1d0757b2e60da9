import ServiceDoc.Failure
import ServiceDoc.OpenApi.Element
import ServiceDoc.Value.Same

/-!
# Hoisting servers

Servers that all operations of a path share move up to the path, and servers that all paths share
move up to the document.
-/

namespace ServiceDoc

namespace PathItem

/-- The operations of a path in the order of their verbs. -/
def operations (item : Element) : List Element := Kind.verbs.filterMap item.one?

/-- Change all operations of a path. -/
def mapOperations (change : Element → Element) (item : Element) : Element :=
  Kind.verbs.foldl (fun item verb =>
    match item.one? verb with
    | some operation => item.set verb (.one (change operation))
    | none => item) item

end PathItem

namespace Servers

/-- The address of the only server of an element. -/
def soleUrl? (element : Element) : Option Value :=
  match element.many "servers" with
  | [server] => server.value? "url"
  | _ => none

/-- Leave an element without servers of its own. -/
def clear (element : Element) : Element := element.set "servers" (.many [])

/-- Give an element one server. -/
def put (url : Value) (element : Element) : Element :=
  element.set "servers" (.many [(Element.empty .server).set "url" (.value url)])

/-- Add a value to a list of values that are not the same. -/
def addNew (values : List Value) (value : Value) : List Value :=
  if values.any value.same then values else values ++ [value]

/-- The different addresses of operations with one server. -/
def urlsOf (operations : List Element) : List Value :=
  (operations.filterMap soleUrl?).foldl addNew []

/-- Whether an address equals itself: what is no number does not. -/
def equalsItself : Value → Bool
  | .scalar (.nan _) => false
  | _ => true

/-- Whether an element has one server, of a given address. -/
def hasSole (url : Value) (element : Element) : Bool :=
  equalsItself url && (soleUrl? element).any url.same

/-- Move the server that all operations of a path share up to the path. -/
def hoistToPath (item : Element) : Element :=
  let operations := PathItem.operations item
  match urlsOf operations with
  | [url] =>
    if operations.all (hasSole url) then put url (PathItem.mapOperations clear item) else item
  | _ => item

/-- The different addresses that the operations of all paths have. -/
def urlsOfPaths (paths : Entries Element) : List Value :=
  paths.foldl (fun urls entry => (urlsOf (PathItem.operations entry.2)).foldl addNew urls) []

/-- Change the elements of a mapping. -/
def mapEntries (change : Element → Element) (entries : Entries Element) : Entries Element :=
  entries.map fun (key, element) => (key, change element)

/-- Move servers that all operations of a path share up to the path, and then servers that all paths
share up to the document. -/
def hoist (document : Element) : Element :=
  let paths := document.table "paths"
  let hoisted := mapEntries hoistToPath paths
  match urlsOfPaths paths with
  | [url] =>
    if !paths.isEmpty && hoisted.all fun entry => hasSole url entry.2 then
      put url (document.set "paths" (.table (mapEntries clear hoisted)))
    else document.set "paths" (.table hoisted)
  | _ => document.set "paths" (.table hoisted)

/-! ## Addresses that hold themselves

Addresses can be values that hold themselves, and comparing two of these can have no end. The
comparisons are those of `hoist`, in the order in which they are made. -/

/-- Whether a value is among others, if this can be found out. -/
def isAmong? (value : Value) : List Value → Option Bool
  | [] => some false
  | other :: others => do if ← value.same? other then some true else isAmong? value others

/-- Add a value to a list of values that are not the same, if it can be compared. -/
def addNew? (values : List Value) (value : Value) : Option (List Value) := do
  if ← isAmong? value values then some values else some (values ++ [value])

/-- Whether all elements have one server, of a given address, if this can be found out. -/
def haveSole? (url : Value) : List Element → Option Bool
  | [] => some true
  | element :: elements =>
    match soleUrl? element with
    | none => some false
    | some other => do if ← url.same? other then haveSole? url elements else some false

/-- Add the addresses of the operations of a path to others, if all can be compared. -/
def addPath? (urls : List Value) (item : Element) : Option (List Value) := do
  let operations := PathItem.operations item
  let own ← (operations.filterMap soleUrl?).foldlM addNew? []
  match own with
  | [url] => discard (haveSole? url operations)
  | _ => pure ()
  own.foldlM addNew? urls

/-- Whether all comparisons come to an end. -/
def areComparable (document : Element) : Bool :=
  let items := (document.table "paths").map Prod.snd
  match items.foldlM addPath? [] with
  | none => false
  | some [url] => (haveSole? url (items.map hoistToPath)).isSome
  | some _ => true

/-- Move shared servers up, if their addresses can be compared. -/
def hoistChecked (document : Element) : Except Failure Element :=
  if areComparable document then .ok (hoist document) else .error .endless

end Servers

end ServiceDoc
