/-!
# Ranges of code points

A property of characters that a standard tabulates is kept as a list of closed ranges of code
points in increasing order.
-/

namespace ServiceDoc.Text

/-- Whether a code point lies in one of the closed ranges. -/
def inRanges (ranges : List (Nat × Nat)) (code : Nat) : Bool :=
  ranges.any fun range => range.1 ≤ code && code ≤ range.2

end ServiceDoc.Text
