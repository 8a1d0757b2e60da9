import ServiceDoc.Comment.Block
import ServiceDoc.Definition.SourceInfo
import ServiceDoc.OpenApi.Load
import ServiceDoc.Value.Same

/-!
# Failures

Why a document can not be built.
-/

namespace ServiceDoc

/-- Why a document can not be built. -/
inductive Failure where
  /-- A comment can not be read. -/
  | comment (error : CommentError)
  /-- A comment of a file can not be placed. -/
  | noLine
  /-- The annotation of a definition does not fit its element. -/
  | payload (place : String) (error : LoadError)
  /-- The entry of a map has no field for the value. -/
  | noMapValue (entry : String)
  /-- The host of a service is malformed. -/
  | malformedHost (host : String)
  /-- There is no message where one is needed. -/
  | noMessage
  /-- A tag is no text and can not be searched. -/
  | tagNotText (tag : Value)
  /-- A tag is a collection that holds the separator. -/
  | tagNotCut (tag : Value)
  /-- Keys can not be put in order. -/
  | unordered
  /-- Comparing values or expanding fields has no end. -/
  | endless
  /-- An integer is too long to be shown. -/
  | longInteger
  /-- A path has no operation of a verb. -/
  | unsupportedVerb (verb : String)
  deriving Repr

namespace Failure

/-- The failure of a comment of a file. -/
def ofFileComment : FileCommentError → Failure
  | .noLine => noLine
  | .comment error => comment error

/-- The failure of an attempt to put values in order. -/
def ofDisorder : Disorder → Failure
  | .unordered => unordered
  | .endless => endless

/-- The code points of the wording of a failure. -/
def message : Failure → List Nat
  | comment error => Text.codes error.message
  | noLine => Text.codes "a comment has no line"
  | payload place error =>
    Text.codes ("Invalid annotation on " ++ place ++ ": ") ++ error.message
  | noMapValue entry => Text.codes ("the map entry " ++ entry ++ " has no value")
  | malformedHost host => Text.codes ("the host " ++ host ++ " is malformed")
  | noMessage => Text.codes "a message is missing"
  | tagNotText tag => Text.codes ("the tag " ++ tag.shown ++ " is no text")
  | tagNotCut tag => Text.codes ("the tag " ++ tag.shown ++ " can not be cut")
  | unordered => Text.codes "keys can not be put in order"
  | endless => Text.codes "building has no end"
  | longInteger => Text.codes "an integer is too long to be shown"
  | unsupportedVerb verb => Text.codes ("a path has no operation " ++ verb)

end Failure

end ServiceDoc
