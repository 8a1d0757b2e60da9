import ServiceDoc.Json.Read
import ServiceDoc.Text.Blank
import ServiceDoc.Text.Pieces
import ServiceDoc.Text.Word

/-!
# Annotation blocks of a comment

A comment can hold blocks `[#openapi-…: {…}]`, a key and a JSON object. Scanning cuts a comment
into its blocks and the text around them; markers of other tools are text.
-/

namespace ServiceDoc

/-- What an annotation block annotates. -/
inductive AnnotationKey where
  | document
  | service
  | operation
  /-- The component schema of a message. -/
  | schema
  /-- The schema of a field. -/
  | property
  deriving DecidableEq, Repr

namespace AnnotationKey

/-- The name that a block starts with. -/
def name : AnnotationKey → String
  | document => "openapi-document"
  | service => "openapi-service"
  | operation => "openapi-operation"
  | schema => "openapi-schema"
  | property => "openapi-property"

/-- All keys. -/
def all : List AnnotationKey := [document, service, operation, schema, property]

/-- The key of a name. -/
def ofName? (name : String) : Option AnnotationKey :=
  all.find? fun key => key.name == name

/-- Every key is found by its name. -/
theorem ofName?_name (key : AnnotationKey) : ofName? key.name = some key := by
  cases key <;> decide

end AnnotationKey

/-- Why a comment can not be read. -/
inductive CommentError where
  /-- A block has the right kind of name but none that is known. -/
  | unknownKey (name : String)
  /-- The value of a block is no JSON. -/
  | malformed (key : AnnotationKey) (flaw : Json.Flaw) (place : Json.Place)
  /-- The value of a block is no object. -/
  | notObject (key : AnnotationKey)
  /-- No closing bracket follows the value of a block. -/
  | unterminated (key : AnnotationKey)
  /-- An integer in the value of a block is too long to be read. -/
  | longInteger
  /-- Containers in the value of a block are too deep inside of each other. -/
  | tooDeep
  deriving DecidableEq, Repr

/-- A block opened by its key, as messages cite it. -/
def AnnotationKey.cited (key : AnnotationKey) : String := "[#" ++ key.name ++ ":]"

/-- The wording of an error. -/
def CommentError.message : CommentError → String
  | unknownKey name => "Unknown annotation: " ++ name
  | malformed key flaw place =>
    "Invalid JSON in " ++ key.cited ++ " annotation: " ++ flaw.located place
  | notObject key => key.cited ++ " annotation must hold a JSON object"
  | unterminated key => "Unterminated " ++ key.cited ++ " annotation"
  | longInteger => "an integer has too many digits"
  | tooDeep => "containers are too deep inside of each other"

namespace Comment

/-- A marker `[#name:` in a text, with the blanks after it. -/
structure Marker where
  before : List Char
  /-- The name between the sign and the colon. -/
  name : List Char
  source : List Char
  after : List Char

/-- A character of a marker's name. -/
def isNameChar (c : Char) : Bool := Text.isWord c || c == '-'

/-- The marker that starts a text. -/
def markerHere? : List Char → Option Marker
  | '[' :: '#' :: rest =>
    let name := rest.takeWhile isNameChar
    match name.isEmpty, rest.drop name.length with
    | false, ':' :: rest' =>
      let blanks := rest'.takeWhile Text.isBlank
      some ⟨[], name, '[' :: '#' :: (name ++ ':' :: blanks), rest'.drop blanks.length⟩
    | _, _ => none
  | _ => none

/-- The first marker of a text. -/
def nextMarker? : List Char → Option Marker
  | [] => none
  | c :: rest =>
    match markerHere? (c :: rest) with
    | some marker => some marker
    | none => (nextMarker? rest).map fun marker => { marker with before := c :: marker.before }

/-- An annotation block and the text before it. -/
structure Block where
  /-- The text between the block before and this one. -/
  before : List Char
  /-- What the block annotates. -/
  key : AnnotationKey
  /-- The entries of the JSON object. -/
  entries : Entries Value

/-- A text cut into blocks and the text after the last one. -/
structure Cut where
  blocks : List Block
  /-- The text after the last block. -/
  tail : List Char

/-- Put text before everything else. -/
def Cut.prepend (text : List Char) (cut : Cut) : Cut :=
  match cut.blocks with
  | [] => ⟨[], text ++ cut.tail⟩
  | block :: blocks => ⟨{ block with before := text ++ block.before } :: blocks, cut.tail⟩

/-- The value of a block that starts at an offset, its entries and the text after them. -/
def readEntries (whole : List Char) (key : AnnotationKey) (offset : Nat) (rest : List Char) :
    Except CommentError (Entries Value × List Char) :=
  match Json.readHere ⟨offset, rest⟩ with
  | .error (.malformed flaw position) => .error (.malformed key flaw (.of whole position))
  | .error .longInteger => .error .longInteger
  | .error .tooDeep => .error .tooDeep
  | .ok (.object _ entries, last) => .ok (entries, last.rest)
  | .ok _ => .error (.notObject key)

/-- Cut the rest of a text at its blocks. Every marker takes at least one character, so the length
of the rest bounds the number of steps. -/
def cutFrom (whole : List Char) : (fuel : Nat) → List Char → Except CommentError Cut
  | 0, rest => .ok ⟨[], rest⟩
  | fuel + 1, rest =>
    match nextMarker? rest with
    | none => .ok ⟨[], rest⟩
    | some marker =>
      if !"openapi-".toList.isPrefixOf marker.name then
        (cutFrom whole fuel marker.after).map (Cut.prepend (marker.before ++ marker.source))
      else
        let name := String.ofList marker.name
        match AnnotationKey.ofName? name with
        | none => .error (.unknownKey name)
        | some key => do
          let offset := whole.length - marker.after.length
          let (entries, rest) ← readEntries whole key offset marker.after
          match Text.cutFirst [']'] rest with
          | none => .error (.unterminated key)
          | some (_, rest) =>
            let cut ← cutFrom whole fuel rest
            return ⟨⟨marker.before, key, entries⟩ :: cut.blocks, cut.tail⟩

/-- Cut a text at its blocks. -/
def cut (text : List Char) : Except CommentError Cut :=
  cutFrom text (text.length + 1) text

/-- The annotations of a comment by key. -/
abbrev Annotations := List (AnnotationKey × Entries Value)

/-- Set the entries of a key, in place if the key is there. -/
def Annotations.put : Annotations → AnnotationKey → Entries Value → Annotations
  | [], key, entries => [(key, entries)]
  | (other, old) :: rest, key, entries =>
    if other = key then (key, entries) :: rest else (other, old) :: put rest key entries

/-- Set the entries of all keys of later annotations. -/
def Annotations.putAll (earlier later : Annotations) : Annotations :=
  later.foldl (fun result (key, entries) => result.put key entries) earlier

/-- The annotations of the blocks in order of first appearance, the last block of a key winning. -/
def Cut.annotations (cut : Cut) : Annotations :=
  cut.blocks.foldl (fun result block => result.put block.key block.entries) []

/-- The text without the blocks. -/
def Cut.text (cut : Cut) : List Char :=
  cut.blocks.flatMap Block.before ++ cut.tail

/-- The annotations of a text. -/
def annotationsOf (text : String) : Except CommentError Annotations :=
  (cut text.toList).map Cut.annotations

/-- A text without its annotation blocks. -/
def withoutBlocks (text : String) : Except CommentError String :=
  (cut text.toList).map fun cut => String.ofList cut.text

end Comment

end ServiceDoc
