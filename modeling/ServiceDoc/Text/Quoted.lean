import ServiceDoc.Text.Code
import ServiceDoc.Text.Printable

/-!
# Quoted text

How a message quotes a text: between single quotes, or between double quotes if the text holds
single quotes only; the quote and the backslash get a backslash, and what cannot be shown is
written by its number in hexadecimal.
-/

namespace ServiceDoc.Text

/-- One code point between the given quotes. -/
def quotedCode (quote : Char) (code : Nat) : List Char :=
  if code = quote.toNat then ['\\', quote]
  else if code = 92 then ['\\', '\\']
  else if code = 10 then ['\\', 'n']
  else if code = 13 then ['\\', 'r']
  else if code = 9 then ['\\', 't']
  else if isPrintable code then [Char.ofNat code]
  else if code < 0x100 then '\\' :: 'x' :: hex 2 code
  else if code < 0x10000 then '\\' :: 'u' :: hex 4 code
  else '\\' :: 'U' :: hex 8 code

/-- The quote that a text is put between. -/
def quoteFor (codes : List Nat) : Char :=
  if codes.contains 39 && !codes.contains 34 then '"' else '\''

/-- Code points between quotes. -/
def quotedCodes (codes : List Nat) : String :=
  let quote := quoteFor codes
  String.ofList (quote :: (codes.flatMap (quotedCode quote) ++ [quote]))

/-- A string between quotes. -/
def quoted (text : String) : String :=
  quotedCodes (text.toList.map Char.toNat)

/-- Code points as a text in which every surrogate is written by its number. -/
def spelled (codes : List Nat) : String :=
  String.ofList (codes.flatMap fun code =>
    if isCharacter code then [Char.ofNat code] else '\\' :: 'u' :: hex 4 code)

end ServiceDoc.Text
