import ServiceDoc.Comment.Basic
import ServiceDoc.Definition.Basic

/-!
# Comments by place

The comments of a file are found by the paths of the definitions that they precede. The last
location of a path counts. Detached comments before the first location that has any belong to the
file.
-/

namespace ServiceDoc

/-- Why the comments of a file can not be read. -/
inductive FileCommentError where
  /-- A location with detached comments does not say on which line it is. -/
  | noLine
  /-- A comment can not be read. -/
  | comment (error : CommentError)
  deriving DecidableEq, Repr

namespace SourceInfo

/-- The location of a path. -/
def location? (locations : List Location) (path : List Int) : Option Location :=
  locations.reverse.find? fun location => location.path = path

/-- The comment before the definition of a path; empty if there is none. -/
def comment (locations : List Location) (path : List Int) : Comment :=
  match location? locations path with
  | some location => ⟨Comment.unindented location.leading⟩
  | none => .empty

/-- The first line of a location. -/
def firstLine (location : Location) : Except FileCommentError Int :=
  match location.span with
  | line :: _ => .ok line
  | [] => .error .noLine

/-- The first of the locations with the least first line. -/
def earliest (first : Location) (line : Int) : List Location → Except FileCommentError Location
  | [] => .ok first
  | other :: others => do
    let otherLine ← firstLine other
    if otherLine < line then earliest other otherLine others else earliest first line others

/-- The comments that belong to the whole file. -/
def fileComments (locations : List Location) : Except FileCommentError (List String) :=
  match locations.filter fun location => !location.detached.isEmpty with
  | [] => .ok []
  | first :: others => do
    let location ← earliest first (← firstLine first) others
    return location.detached.map Comment.unindented

/-- The annotations of the whole file; later comments win. -/
def fileAnnotations (locations : List Location) : Except FileCommentError Comment.Annotations := do
  let comments ← fileComments locations
  comments.foldlM (fun found comment =>
    match Comment.annotationsOf comment with
    | .ok annotations => .ok (Comment.Annotations.putAll found annotations)
    | .error error => .error (.comment error)) []

end SourceInfo

end ServiceDoc
