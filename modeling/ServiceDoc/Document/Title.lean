import ServiceDoc.Failure
import ServiceDoc.Value.Same
import ServiceDoc.Value.Shown

/-!
# Titles

A document without a title that describes one service is named after it.
-/

namespace ServiceDoc

namespace Title

/-- The title of the interface of a name. -/
def ofName (name : Value) : Value := .scalar (.ofCodes (name.plain ++ Text.codes " API"))

/-- Whether the value of a field counts as set. -/
def isSet (element : Element) (key : String) : Bool :=
  (element.value? key).any Value.isTruthy

/-- The name of a tag. -/
def tagName (tag : Element) : Value := (tag.value? "name").getD .null

/-- Name a document after its only tag, and let the description of the tag describe the document. -/
def nameAfter (tag document : Element) : Element :=
  let info := (document.one? "info").getD (.empty .info)
  let titled := info.set "title" (.value (ofName (tagName tag)))
  match isSet tag "description", tag.get? "description" with
  | true, some description =>
    (document.set "info" (.one (titled.set "description" description))).set "tags"
      (.many [tag.erase "description"])
  | _, _ => document.set "info" (.one titled)

/-- Name a document without a title after its only tag, if the name of the tag can be shown. -/
def promote (document : Element) : Except Failure Element :=
  let info := (document.one? "info").getD (.empty .info)
  match document.many "tags" with
  | [tag] =>
    if isSet info "title" then .ok document
    else if (tagName tag).holdsLong then .error .longInteger
    else .ok (nameAfter tag document)
  | _ => .ok document

end Title

end ServiceDoc
