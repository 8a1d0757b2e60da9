/-!
# Blanks

The characters that Unicode counts as white space, together with the four information separators
U+001C to U+001F, and trimming by them.
-/

namespace ServiceDoc.Text

/-- White space of the Unicode standard, and the information separators. -/
def isBlank (c : Char) : Bool :=
  let code := c.toNat
  (9 ≤ code && code ≤ 13) || (0x1c ≤ code && code ≤ 0x20) || code == 0x85 || code == 0xa0 ||
    code == 0x1680 || (0x2000 ≤ code && code ≤ 0x200a) || code == 0x2028 || code == 0x2029 ||
    code == 0x202f || code == 0x205f || code == 0x3000

/-- Drop what is of a class at both ends. -/
def dropAround {α : Type} (isDropped : α → Bool) (text : List α) : List α :=
  ((text.dropWhile isDropped).reverse.dropWhile isDropped).reverse

/-- Drop the blanks at both ends. -/
def trim (text : List Char) : List Char := dropAround isBlank text

/-- Drop the blanks at both ends of code points. -/
def trimCodes (codes : List Nat) : List Nat :=
  dropAround (fun code => isBlank (Char.ofNat code)) codes

/-- Whether a character can stand around a number: a blank that is no information separator. -/
def isNumberBlank (c : Char) : Bool := isBlank c && !(0x1c ≤ c.toNat && c.toNat ≤ 0x1f)

/-- Drop the blanks around a number. -/
def trimNumber (text : List Char) : List Char := dropAround isNumberBlank text

@[simp] theorem trim_nil : trim [] = [] := rfl

end ServiceDoc.Text
