import ServiceDoc.Double.Shortest
import ServiceDoc.Text.Pieces
import ServiceDoc.Text.Quoted
import ServiceDoc.Value.Basic

/-!
# Values in messages

How a message shows a value: texts between quotes, truth values and nothing by their names,
sequences in square brackets, pairs in round ones, mappings in braces. A container that is met
inside of itself is not shown again. Integers that are too long can not be written at all.
-/

namespace ServiceDoc

/-- Why a value can not be written. -/
inductive WriteError where
  /-- The format has no form for a value or a key. -/
  | foreign
  /-- A container holds itself. -/
  | circular
  /-- An integer is too long to be written. -/
  | longInteger
  /-- Containers are too deep inside of each other. -/
  | tooDeep
  deriving DecidableEq, Repr

/-- A byte between the given quotes. -/
def shownByte (quote : Char) (byte : UInt8) : List Char :=
  let code := byte.toNat
  if code = 9 then ['\\', 't']
  else if code = 10 then ['\\', 'n']
  else if code = 13 then ['\\', 'r']
  else if code = 92 then ['\\', '\\']
  else if code = quote.toNat then ['\\', quote]
  else if 32 ≤ code ∧ code < 127 then [Char.ofNat code]
  else '\\' :: 'x' :: Text.hex 2 code

/-- Bytes between quotes, with a letter before them. -/
def shownBytes (bytes : List UInt8) : String :=
  let quote := Text.quoteFor (bytes.map UInt8.toNat)
  String.ofList ('b' :: quote :: (bytes.flatMap (shownByte quote) ++ [quote]))

/-- The fields of a date, separated by commas. -/
def Date.shownFields (d : Date) : String :=
  s!"{d.year}, {d.month}, {d.day}"

/-- An offset from universal time as whole days and the seconds above them. -/
def shownOffset (minutes : Int) : String :=
  if minutes = 0 then "datetime.timezone.utc"
  else
    let days := minutes.fdiv 1440
    let seconds := minutes.fmod 1440 * 60
    let parts :=
      (if days = 0 then [] else [s!"days={days}"]) ++
      (if seconds = 0 then [] else [s!"seconds={seconds}"])
    "datetime.timezone(datetime.timedelta(" ++ Text.join ", " parts ++ "))"

/-- A date as a message shows it. -/
def Date.shown (d : Date) : String := "datetime.date(" ++ d.shownFields ++ ")"

/-- A timestamp as a message shows it; zero seconds and microseconds at the end are left out. -/
def Timestamp.shown (t : Timestamp) : String :=
  let tail :=
    if t.microsecond ≠ 0 then s!", {t.second}, {t.microsecond}"
    else if t.second ≠ 0 then s!", {t.second}"
    else ""
  let zone := (t.offset.map fun minutes => ", tzinfo=" ++ shownOffset minutes).getD ""
  "datetime.datetime(" ++ t.date.shownFields ++ s!", {t.hour}, {t.minute}" ++ tail ++ zone ++ ")"

/-- The least integer that is too long to be shown: shown are integers of 4300 digits at most. -/
def longInteger : Nat := Nat.pow 10 4300

/-- Whether an integer is too long to be shown. -/
def isLongInteger (n : Int) : Bool := longInteger ≤ n.natAbs

/-- Whether a scalar is an integer that is too long to be shown. -/
def Scalar.isLong : Scalar → Bool
  | .int n => isLongInteger n
  | _ => false

mutual
/-- Whether a value holds an integer that is too long to be shown. -/
def Value.holdsLong : Value → Bool
  | .scalar value => value.isLong
  | .array _ items => Value.itemsHoldLong items
  | .pair _ first second => first.holdsLong || second.holdsLong
  | .object _ entries => Value.entriesHoldLong entries
  | .set _ members => members.any Scalar.isLong
  | .enclosing _ _ => false

/-- Whether an item of a sequence holds an integer that is too long. -/
def Value.itemsHoldLong : List Value → Bool
  | [] => false
  | item :: items => item.holdsLong || Value.itemsHoldLong items

/-- Whether a key or a value of a mapping holds an integer that is too long. -/
def Value.entriesHoldLong : Entries Value → Bool
  | [] => false
  | (key, value) :: entries => key.isLong || value.holdsLong || Value.entriesHoldLong entries
end

/-- A scalar as a message shows it. -/
def Scalar.shown : Scalar → String
  | .null => "None"
  | .bool true => "True"
  | .bool false => "False"
  | .int n => toString n
  | .double d => d.text
  | .nan _ => "nan"
  | .string s => Text.quoted s
  | .surrogates codes => Text.quotedCodes codes
  | .date _ d => d.shown
  | .timestamp _ t => t.shown
  | .bytes content => shownBytes content

/-- The code points of a scalar as a message spells it where no quotes are wanted. -/
def Scalar.plain : Scalar → List Nat
  | .string s => Text.codes s
  | .surrogates codes => codes
  | .date _ d => Text.codes d.text
  | .timestamp _ t => Text.codes t.text
  | scalar => Text.codes scalar.shown

/-- Text between brackets. -/
def bracketed (opening closing : String) (parts : List String) : String :=
  opening ++ Text.join ", " parts ++ closing

/-- What stands for a sequence that is being shown already. -/
def againSequence : String := "[...]"

/-- What stands for a pair that is being shown already. -/
def againPair : String := "(...)"

/-- What stands for a mapping that is being shown already. -/
def againMapping : String := "\x7b...\x7d"

/-- The marks of the containers that are being shown inside of one more container. -/
def Value.noting (mark : Mark) (around : List Mark) : List Mark :=
  if mark.isEmpty then around else mark :: around

mutual
/-- A value as a message shows it inside of containers of some marks. -/
def Value.shownInside (around : List Mark) : Value → String
  | .scalar value => value.shown
  | .array mark items =>
    if around.contains mark then againSequence
    else bracketed "[" "]" (Value.shownItems (Value.noting mark around) items)
  | .pair mark first second =>
    if around.contains mark then againPair
    else bracketed "(" ")"
      [Value.shownInside (Value.noting mark around) first,
        Value.shownInside (Value.noting mark around) second]
  | .object mark entries =>
    if around.contains mark then againMapping
    else bracketed "\x7b" "\x7d" (Value.shownEntries (Value.noting mark around) entries)
  | .set _ members =>
    if members.isEmpty then "set()" else bracketed "\x7b" "\x7d" (members.map Scalar.shown)
  | .enclosing .sequence _ => againSequence
  | .enclosing .mapping _ => againMapping

/-- The items of a sequence as a message shows them. -/
def Value.shownItems (around : List Mark) : List Value → List String
  | [] => []
  | item :: items => item.shownInside around :: Value.shownItems around items

/-- The entries of a mapping as a message shows them. -/
def Value.shownEntries (around : List Mark) : Entries Value → List String
  | [] => []
  | (key, value) :: entries =>
    (key.shown ++ ": " ++ value.shownInside around) :: Value.shownEntries around entries
end

/-- A value as a message shows it. -/
def Value.shown (value : Value) : String := value.shownInside []

/-- The code points of a value as a message spells it where no quotes are wanted. -/
def Value.plain : Value → List Nat
  | .scalar value => value.plain
  | value => Text.codes value.shown

end ServiceDoc
