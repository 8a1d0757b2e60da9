import ServiceDoc.Text.Pieces
import ServiceDoc.Text.Quoted
import ServiceDoc.Text.Utf8

/-!
# Files

What a run reads is given as a function from paths to contents.
-/

namespace ServiceDoc

/-- Why a file can not be read. -/
inductive FileError where
  /-- There is no such file. -/
  | missing
  /-- The path is that of a directory. -/
  | directory
  /-- A part of the path before the last is no directory. -/
  | notDirectory
  /-- Reading is not permitted. -/
  | denied
  | longName
  deriving DecidableEq, Repr

/-- The number and the wording of an error. -/
def FileError.report : FileError → Nat × String
  | missing => (2, "No such file or directory")
  | denied => (13, "Permission denied")
  | notDirectory => (20, "Not a directory")
  | directory => (21, "Is a directory")
  | longName => (36, "File name too long")

/-- The message about a path that can not be read. -/
def FileError.message (error : FileError) (path : String) : String :=
  let (number, text) := error.report
  s!"[Errno {number}] " ++ text ++ ": " ++ Text.quoted path

/-- The contents of files by their paths. -/
structure Files where
  /-- The bytes of a file. -/
  read : String → Except FileError (List UInt8)

/-- The parts of a path. -/
def pathParts (path : String) : List String := (Text.cutAt '/' path.toList).map String.ofList

/-- Whether a part of a path stays in place. -/
def staysInPlace (part : String) : Bool := part == "" || part == "."

/-- A path without empty parts and without parts that stay in place; two slashes at the start are
kept as they are, more count as one. -/
def plainPath (path : String) : String :=
  let slashes := (path.toList.takeWhile (· == '/')).length
  let root := if slashes = 0 then "" else if slashes = 2 then "//" else "/"
  let parts := (pathParts path).filter fun part => !staysInPlace part
  let text := root ++ Text.join "/" parts
  if text = "" then "." else text

/-! ## Files of one directory -/

/-- The most bytes of a part of a path. -/
def maxPart : Nat := 255

/-- The least number of bytes that no path can have. -/
def pathLimit : Nat := 4096

/-- Files by the parts of their paths. -/
abbrev Contents := List (List String × List UInt8)

/-- Whether a path that leaves the directory of the files leads to another directory. -/
def leadsOutside (parts : List String) : Bool :=
  parts.all fun part => staysInPlace part || part == ".."

/-- What the parts of a path lead to from a directory. -/
def Contents.lookUp (contents : Contents) (directory : List String) :
    List String → Except FileError (List UInt8)
  | [] => .error .directory
  | part :: rest =>
    if staysInPlace part then contents.lookUp directory rest
    else if part = ".." then
      if directory.isEmpty then .error (if leadsOutside rest then .directory else .missing)
      else contents.lookUp directory.dropLast rest
    else
      let path := directory ++ [part]
      match contents.lookup path with
      | some bytes => if rest.isEmpty then .ok bytes else .error .notDirectory
      | none =>
        if contents.any fun entry => path.isPrefixOf entry.1 then contents.lookUp path rest
        else .error (if maxPart < part.utf8ByteSize then .longName else .missing)

/-- The files of the directory in which a run starts, by their paths from there; there are no
others. -/
def Files.ofList (files : List (String × List UInt8)) : Files where
  read path :=
    let parts := pathParts path
    let contents : Contents := files.map fun (name, bytes) =>
      ((pathParts name).filter fun part => !staysInPlace part, bytes)
    if path = "" then .error .missing
    else if pathLimit ≤ path.utf8ByteSize then .error .longName
    else if parts.head? = some "" then
      .error (if leadsOutside parts then .directory else .missing)
    else contents.lookUp [] parts

end ServiceDoc
