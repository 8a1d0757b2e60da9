import ServiceDoc.Text.Code
import ServiceDoc.Value.Moment

/-!
# Dates and times in YAML

A date is a year of four digits, a month and a day. A time follows after the letter `t` or blanks:
hour, minute and second, perhaps a fraction, perhaps a distance from universal time.
-/

namespace ServiceDoc.Yaml

/-- The numbers of a written time. -/
structure ClockReading where
  hour : Nat
  minute : Nat
  second : Nat
  microsecond : Nat
  /-- Minutes ahead of universal time. -/
  offset : Option Int
  deriving DecidableEq, Repr

/-- The numbers of a written date, and of the time after it. -/
structure MomentReading where
  /-- The date, which need not exist. -/
  date : Date
  /-- Whether month and day have two digits each. -/
  isFull : Bool
  /-- The time, which need not exist. -/
  clock : Option ClockReading
  deriving DecidableEq, Repr

/-- Read a number of `least` to `most` digits, as many as there are. -/
def digits? (least most : Nat) (text : List Char) : Option (List Char × List Char) :=
  let found := (text.takeWhile Text.isDigit).take most
  if least ≤ found.length then some (found, text.drop found.length) else none

/-- Read a character. -/
def expect? (c : Char) : List Char → Option (List Char)
  | first :: rest => if first = c then some rest else none
  | [] => none

/-- Whether a character is a space or a tab. -/
def isSpaceOrTab (c : Char) : Bool := c == ' ' || c == '\t'

/-- The microseconds of the digits of a fraction; further digits are dropped. -/
def microseconds (fraction : List Char) : Nat :=
  let kept := fraction.take 6
  Text.ofDecimal (kept ++ List.replicate (6 - kept.length) '0')

/-- Read a distance from universal time in minutes; blanks can come before it. -/
def offset? (text : List Char) : Option (Option Int) :=
  match text.dropWhile isSpaceOrTab with
  | [] => if text.isEmpty then some none else none
  | ['Z'] => some (some 0)
  | sign :: rest =>
    if sign ≠ '-' ∧ sign ≠ '+' then none
    else do
      let (hours, afterHours) ← digits? 1 2 rest
      let (minutes, afterMinutes) ← match afterHours with
        | ':' :: tail => digits? 2 2 tail
        | tail => some ([], tail)
      let total : Int := Text.ofDecimal hours * 60 + Text.ofDecimal minutes
      if afterMinutes.isEmpty then some (some (if sign = '-' then -total else total)) else none

/-- Read the time after a date. -/
def clock? (text : List Char) : Option ClockReading := do
  let start ← match text with
    | 't' :: rest | 'T' :: rest => some rest
    | first :: rest =>
      if isSpaceOrTab first then some (rest.dropWhile isSpaceOrTab) else none
    | [] => none
  let (hour, afterHour) ← digits? 1 2 start
  let (minute, afterMinute) ← digits? 2 2 (← expect? ':' afterHour)
  let (second, afterSecond) ← digits? 2 2 (← expect? ':' afterMinute)
  let (fraction, afterFraction) := match afterSecond with
    | '.' :: tail => (tail.takeWhile Text.isDigit, tail.dropWhile Text.isDigit)
    | tail => ([], tail)
  let offset ← offset? afterFraction
  return {
    hour := Text.ofDecimal hour
    minute := Text.ofDecimal minute
    second := Text.ofDecimal second
    microsecond := microseconds fraction
    offset }

/-- Read a date, or a date and a time. -/
def moment? (text : List Char) : Option MomentReading := do
  let (year, afterYear) ← digits? 4 4 text
  let (month, afterMonth) ← digits? 1 2 (← expect? '-' afterYear)
  let (day, afterDay) ← digits? 1 2 (← expect? '-' afterMonth)
  let date : Date := ⟨Text.ofDecimal year, Text.ofDecimal month, Text.ofDecimal day⟩
  let isFull := month.length == 2 && day.length == 2
  if afterDay.isEmpty then return ⟨date, isFull, none⟩
  else return ⟨date, isFull, some (← clock? afterDay)⟩

/-- Whether a text is read as a date or time when nothing says otherwise: a date alone needs two
digits for month and day. -/
def looksLikeMoment (text : List Char) : Bool :=
  match moment? text with
  | some reading => reading.isFull || reading.clock.isSome
  | none => false

end ServiceDoc.Yaml
