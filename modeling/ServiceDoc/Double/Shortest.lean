import ServiceDoc.Double.Basic

/-!
# The shortest decimal of a double

The decimal written for a double is the one with the fewest digits that reads back as it, and of
those the nearest. All arithmetic is exact: the numbers that read back as `m · 2 ^ q` are those
between the midpoints to its neighbours, the midpoints included when `m` is even, and on each
decimal grid only the two points around the value need a test.
-/

namespace ServiceDoc.Double

/-- The number of decimal digits of a natural number. -/
def digitCount (n : Nat) : Nat := (Nat.toDigits 10 n).length

/-- The least `k` with `numerator / denominator < 10 ^ k`, for a positive quotient. -/
def decimalMagnitude (numerator denominator : Nat) : Int :=
  if denominator ≤ numerator then digitCount (numerator / denominator)
  else 1 - (digitCount ((denominator - 1) / numerator) : Int)

/-- A positive number and the ends of the interval that rounds to it, over one denominator. -/
structure Rounding where
  low : Nat
  value : Nat
  high : Nat
  unit : Nat
  /-- Whether the ends belong to the interval. -/
  closed : Bool

/-- The interval that rounds to `m · 2 ^ q`; below a power of two the neighbours lie closer. -/
def Rounding.of (m : Nat) (q : Int) : Rounding :=
  let scale := Nat.pow 2 q.toNat
  { low := (4 * m - if m = Nat.pow 2 52 ∧ -1074 < q then 1 else 2) * scale
    value := 4 * m * scale
    high := (4 * m + 2) * scale
    unit := 4 * Nat.pow 2 (-q).toNat
    closed := m % 2 == 0 }

/-- Whether `c · 10 ^ x` lies in the interval. -/
def Rounding.holds (r : Rounding) (c : Nat) (x : Int) : Bool :=
  let point := c * Nat.pow 10 x.toNat * r.unit
  let low := r.low * Nat.pow 10 (-x).toNat
  let high := r.high * Nat.pow 10 (-x).toNat
  if r.closed then low ≤ point && point ≤ high else low < point && point < high

/-- The point of the grid of multiples of `10 ^ x` that reads back, if one does, the nearer of two
and the even one of a tie. -/
def Rounding.gridPoint? (r : Rounding) (x : Int) : Option Nat :=
  let scaled := r.value * Nat.pow 10 (-x).toNat
  let step := r.unit * Nat.pow 10 x.toNat
  let below := scaled / step
  let twice := 2 * (scaled % step)
  match r.holds below x, r.holds (below + 1) x with
  | true, true =>
    some (if twice < step || (twice == step && below % 2 == 0) then below else below + 1)
  | true, false => some below
  | false, true => some (below + 1)
  | false, false => none

/-- Try grids of `count` more digits, the coarsest first, and fall back on the last one. -/
def Rounding.search (r : Rounding) (magnitude : Int) : (count used : Nat) → Nat × Int
  | 0, used => (r.value * Nat.pow 10 ((used : Int) - magnitude).toNat / r.unit, magnitude - used)
  | count + 1, used =>
    match r.gridPoint? (magnitude - (used + 1 : Nat)) with
    | some c => (c, magnitude - (used + 1 : Nat))
    | none => r.search magnitude count (used + 1)

/-- Move trailing zeros of the digits into the exponent. -/
def dropZeros : (fuel : Nat) → Nat → Int → Nat × Int
  | 0, c, x => (c, x)
  | fuel + 1, c, x => if c ≠ 0 ∧ c % 10 = 0 then dropZeros fuel (c / 10) (x + 1) else (c, x)

/-- The shortest decimal `c · 10 ^ x` that reads back as a finite positive double. -/
def shortest (d : Double) : Nat × Int :=
  let r := Rounding.of d.significand d.exponent
  let (c, x) := r.search (decimalMagnitude r.value r.unit) 17 0
  dropZeros 20 c x

/-- How a double is written: positional from `10 ^ -4` up to `10 ^ 16`, otherwise with an exponent
of at least two digits; an integral number keeps one decimal place. -/
def text (d : Double) : String :=
  if d.isNaN then "nan"
  else
    let sign := if d.isNegative then "-" else ""
    if d.isInfinite then sign ++ "inf"
    else if d.significand = 0 then sign ++ "0.0"
    else
      let (c, x) := d.shortest
      let digits := Nat.toDigits 10 c
      let point : Int := digits.length + x
      let zeros (count : Int) : List Char := List.replicate count.toNat '0'
      if -4 < point ∧ point ≤ 16 then
        let body :=
          if point ≤ 0 then '0' :: '.' :: (zeros (-point) ++ digits)
          else if x < 0 then digits.take point.toNat ++ '.' :: digits.drop point.toNat
          else digits ++ zeros x ++ ['.', '0']
        sign ++ String.ofList body
      else
        let exponent := point - 1
        let mantissa := match digits with
          | [] => []
          | [digit] => [digit]
          | first :: rest => first :: '.' :: rest
        let places := Nat.toDigits 10 exponent.natAbs
        let padded := if places.length < 2 then '0' :: places else places
        sign ++ String.ofList (mantissa ++ 'e' :: (if exponent < 0 then '-' else '+') :: padded)

end ServiceDoc.Double
