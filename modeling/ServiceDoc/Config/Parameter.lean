import ServiceDoc.Text.Blank
import ServiceDoc.Text.Pieces

/-!
# The parameter of a run

A run is given one text of entries `key=value` separated by commas. Blank entries are skipped, an
entry without `=` has an empty value, and the last value of a repeated key counts.
-/

namespace ServiceDoc

/-- Entries of a parameter in order of first appearance. -/
abbrev Parameters := List (String × String)

namespace Parameters

/-- Set the value of a key, in place if the key is there. -/
def put : Parameters → String → String → Parameters
  | [], key, value => [(key, value)]
  | (other, old) :: rest, key, value =>
    if other = key then (key, value) :: rest else (other, old) :: put rest key value

/-- The entries of the parts of a text; each is cut at its first `=` and trimmed. -/
def parse (text : String) : Parameters :=
  (Text.cutAt ',' text.toList).foldl (fun result part =>
    if (Text.trim part).isEmpty then result
    else
      let (key, value) := Text.cutOnce '=' part
      result.put (String.ofList (Text.trim key)) (String.ofList (Text.trim value))) []

/-- The value of a key. -/
def get? (parameters : Parameters) (key : String) : Option String := parameters.lookup key

/-- The entries of all other keys. -/
def without (parameters : Parameters) (key : String) : Parameters :=
  parameters.filter fun entry => entry.1 ≠ key

end Parameters

end ServiceDoc
