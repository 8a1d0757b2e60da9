import ServiceDoc.Text.Code

/-!
# The pen

Text is written from left to right with a pen that knows its column. It also knows whether a blank
was just written, so that indicators are kept apart, and whether only indicators and blanks stand on
the line so far, so that a block collection can start on it.
-/

namespace ServiceDoc.Yaml

/-- A pen and what it has written. -/
structure Pen where
  /-- The code points written so far, the last first. -/
  written : List Nat := []
  column : Nat := 0
  /-- Whether a blank or a line break was written last. -/
  isSpaced : Bool := true
  /-- Whether nothing but indicators and blanks stands on the line. -/
  isFresh : Bool := true

namespace Pen

/-- The text that was written. -/
def text (pen : Pen) : List Nat := pen.written.reverse

/-- Write code points. -/
def put (pen : Pen) (codes : List Nat) : Pen :=
  { pen with
    written := codes.reverse ++ pen.written
    column := pen.column + codes.length }

/-- Start a new line by a given line break. -/
def breakWith (pen : Pen) (code : Nat) : Pen :=
  { written := code :: pen.written, column := 0, isSpaced := true, isFresh := true }

/-- Start a new line. -/
def newLine (pen : Pen) : Pen := pen.breakWith 10

/-- Go to the column of an indentation, on a new line unless the pen stands before that column on a
fresh line. -/
def indent (pen : Pen) (column : Nat) : Pen :=
  let stays := pen.isFresh && (pen.column < column || (pen.column == column && pen.isSpaced))
  let placed := if stays then pen else pen.newLine
  if placed.column < column then
    { placed.put (List.replicate (column - placed.column) 32) with isSpaced := true }
  else placed

/-- Write a space unless a blank was written last. -/
def space (pen : Pen) : Pen := if pen.isSpaced then pen else pen.put [32]

/-- Write an indicator after which other text follows at once or after a space. -/
def sign (pen : Pen) (codes : List Nat) : Pen :=
  { pen.put codes with isSpaced := false, isFresh := false }

/-- Write an indicator, kept apart from what comes before. -/
def indicator (pen : Pen) (codes : List Nat) : Pen := pen.space.sign codes

/-- Write the indicator of an entry of a block collection; another entry can start behind it. -/
def entryIndicator (pen : Pen) (codes : List Nat) : Pen :=
  { pen.space.put codes with isSpaced := false, isFresh := pen.isFresh }

end Pen

end ServiceDoc.Yaml
