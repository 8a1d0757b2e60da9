import ServiceDoc.Notice
import ServiceDoc.Text.Integer

/-!
# Arguments of the command

The command takes a level and the file of a request. A switch of one letter can have its value right
behind it, a longer one behind an equals sign; otherwise the value is the next argument. Whatever
else is given is ignored.
-/

namespace ServiceDoc

/-- A switch. -/
inductive Switch where
  | help
  | level
  /-- Read the request from a file. -/
  | request
  deriving DecidableEq, Repr

/-- Switches by their spellings. -/
abbrev Spellings := List (String × Switch)

/-- The switches of every command. -/
def commonSpellings : Spellings :=
  [("-h", .help), ("--help", .help), ("--log-level", .level), ("-l", .level)]

/-- The switches of the command that answers requests. -/
def requestSpellings : Spellings := commonSpellings ++ [("--request", .request)]

/-- What an argument is. -/
inductive Word where
  /-- A value, or something to ignore. -/
  | value (text : String)
  /-- A switch, with what is attached to it. -/
  | switch (switch : Switch) (isLong : Bool) (attached : Option String)
  /-- Something to ignore that is no value. -/
  | ignored
  deriving DecidableEq, Repr

/-- Whether a text is a negative number. -/
def isNegativeNumber : List Char → Bool
  | '-' :: magnitude =>
    let isDigits (text : List Char) : Bool := text.all fun c => (Text.digitValue? c).isSome
    let (whole, places) := Text.cutOnce '.' magnitude
    if magnitude.contains '.' then isDigits whole && !places.isEmpty && isDigits places
    else !whole.isEmpty && isDigits whole
  | _ => false

/-- What an argument that starts with a hyphen is when it is no switch as a whole. -/
def Word.ofHyphen (spellings : Spellings) (text : List Char) : Word :=
  let (name, attached) := Text.cutOnce '=' text
  match if text.contains '=' then spellings.lookup (String.ofList name) else none with
  | some found => .switch found (2 < name.length) (some (String.ofList attached))
  | none =>
    match spellings.lookup (String.ofList (text.take 2)) with
    | some found => .switch found false (some (String.ofList (text.drop 2)))
    | none =>
      if isNegativeNumber text || text.contains ' ' then .value (String.ofList text) else .ignored

/-- What an argument is. -/
def Word.of (spellings : Spellings) (text : String) : Word :=
  match text.toList with
  | '-' :: rest =>
    match spellings.lookup text with
    | some found => .switch found (1 < rest.length) none
    | none => if rest.isEmpty then .value text else ofHyphen spellings ('-' :: rest)
  | _ => .value text

/-- What the arguments are. Behind two hyphens all of them are values. -/
def wordsOf (spellings : Spellings) : List String → List Word
  | [] => []
  | text :: rest =>
    if text = "--" then .ignored :: rest.map .value
    else .of spellings text :: wordsOf spellings rest

/-- Why a command is not run. -/
inductive Refusal where
  /-- The command is to be explained. -/
  | help
  /-- The arguments are wrong. -/
  | misuse
  deriving DecidableEq, Repr

/-- The exit code of a command that is not run. -/
def Refusal.exitCode : Refusal → Nat
  | help => 0
  | misuse => 2

/-- What the arguments say. -/
structure Arguments where
  level : Level := .info
  request : Option String := none
  deriving DecidableEq, Repr

namespace Arguments

/-- Set the value of a switch. -/
def set (arguments : Arguments) (switch : Switch) (value : String) : Except Refusal Arguments :=
  match switch with
  | .help => .error .help
  | .level =>
    match Level.choices.lookup value with
    | some level => .ok { arguments with level }
    | none => .error .misuse
  | .request => .ok { arguments with request := some value }

/-- What the letters behind the letter for help come to: they are switches themselves, of which the
last can take a value. -/
def refusalBehind (spellings : Spellings) (hasValue : Bool) : List Char → Refusal
  | [] => .misuse
  | letter :: rest =>
    match spellings.lookup (String.ofList ['-', letter]) with
    | none => .misuse
    | some .help => if rest.isEmpty then .help else refusalBehind spellings hasValue rest
    | some _ => if rest.isEmpty && !hasValue then .misuse else .help

/-- Read the arguments, one after the other. -/
def ofWords (spellings : Spellings) (arguments : Arguments) :
    List Word → Except Refusal Arguments
  | [] => .ok arguments
  | .switch .help isLong attached :: rest =>
    match attached with
    | none => .error .help
    | some text =>
      if isLong then .error .misuse
      else
        let hasValue := match rest with
          | .value _ :: _ => true
          | _ => false
        .error (refusalBehind spellings hasValue text.toList)
  | .switch switch _ (some value) :: rest => do
    ofWords spellings (← arguments.set switch value) rest
  | .switch switch _ none :: .value value :: rest => do
    ofWords spellings (← arguments.set switch value) rest
  | .switch _ _ none :: _ => .error .misuse
  | _ :: rest => ofWords spellings arguments rest

/-- Read the arguments of a command with some switches. -/
def parse (spellings : Spellings) (texts : List String) : Except Refusal Arguments :=
  ofWords spellings {} (wordsOf spellings texts)

end Arguments

end ServiceDoc
