import ServiceDoc.Comment.Block

/-!
# Comments

A leading comment of a definition: its raw text, what of it is a description, and its annotations.
-/

namespace ServiceDoc

/-- A comment, by its text without the space after the comment sign. -/
structure Comment where
  raw : String
  deriving DecidableEq, Repr

namespace Comment

/-- No comment. -/
def empty : Comment := ⟨""⟩

/-- Take away the one space that follows the comment sign on each line. -/
def unindented (text : String) : String :=
  let lines := Text.cutAt '\n' text.toList
  String.ofList <| Text.joinWith ['\n'] <| lines.map fun line =>
    match line with
    | ' ' :: rest => rest
    | _ => line

/-- Whether a comment holds more than blanks. -/
def isPresent (comment : Comment) : Bool := (Text.trim comment.raw.toList).isEmpty == false

/-- Take away directives to linters, which stand between `(--` and `--)`. Each round takes at least
six characters away. -/
def withoutDirectives : (fuel : Nat) → List Char → List Char
  | 0, text => text
  | fuel + 1, text =>
    match Text.cutFirst "(--".toList text with
    | none => text
    | some (before, inside) =>
      match Text.cutFirst "--)".toList inside with
      | none => text
      | some (_, after) => before ++ withoutDirectives fuel after

/-- The text of a comment without blocks, directives and blanks around it. -/
def description (comment : Comment) : Except CommentError String := do
  let cut ← cut comment.raw.toList
  let text := cut.text
  return String.ofList (Text.trim (withoutDirectives text.length text))

/-- The annotations of a comment. -/
def annotations (comment : Comment) : Except CommentError Annotations :=
  annotationsOf comment.raw

/-- The entries of the annotation of a key. -/
def payload? (comment : Comment) (key : AnnotationKey) :
    Except CommentError (Option (Entries Value)) :=
  comment.annotations.map (·.lookup key)

end Comment

end ServiceDoc
