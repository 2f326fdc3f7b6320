import PatternChart.Number.Binary
/-!
# The shortest decimal that reads back as a given float

Every real number in a float's rounding interval reads back as that float. The
interval is centred on the float's value, its half-width is half the gap to each
neighbouring float (the gap below is half as wide where the exponent steps down), and
its ends belong to it exactly when the significand is even, since a tie is read to
the even significand.

For `k = 1, 2, …, 17` significant digits the decimals with `k` digits near the value
form a grid; if any point of that grid lies in the interval, so does one of the
value's two neighbours on the grid, because the interval is convex and holds the
value. So each grid needs two tests, the first grid with a hit gives the number of
digits, and of two hits the nearer one wins. Seventeen digits always suffice for a
binary64 float, so the search ends there. Everything is integer arithmetic on the
float's exact triple.
-/

set_option autoImplicit false

namespace PatternChart

/-- A positive decimal `digits · 10^exponent` whose digits end in no zero. -/
structure Decimal where
  digits : Nat
  exponent : Int
  deriving DecidableEq, Repr

namespace Decimal

/-- The decimal digits of a natural number, most significant first. -/
def digitText (n : Nat) : String :=
  String.ofList (Nat.toDigits 10 n)

/-- How many decimal digits a positive natural number has. -/
def digitCount (n : Nat) : Nat := (Nat.toDigits 10 n).length

/-- Drops trailing zeros of the digits into the exponent; `fuel` bounds the steps. -/
def trim (fuel : Nat) (d : Decimal) : Decimal :=
  match fuel with
  | 0 => d
  | fuel + 1 =>
    if d.digits ≠ 0 ∧ d.digits % 10 = 0 then trim fuel ⟨d.digits / 10, d.exponent + 1⟩
    else d

/-- The decimal with its trailing zeros moved into the exponent. -/
def normalize (d : Decimal) : Decimal := trim (digitCount d.digits) d

/-- The position of the decimal point relative to the first digit: the value is
`0.d₁d₂… · 10^pointPosition`. -/
def pointPosition (d : Decimal) : Int := d.exponent + digitCount d.digits

end Decimal

/-- The rounding interval of a positive float value, all four numbers over one
common denominator: `low < value < high`, ends included when `closed`. -/
structure RoundingInterval where
  low : Nat
  value : Nat
  high : Nat
  denominator : Nat
  closed : Bool

namespace RoundingInterval

/-- The interval of a float with significand `m > 0` and exponent `e`: the value is
`4m`, the upper end `4m + 2` and the lower end `4m - 2` (or `4m - 1` at a binade
boundary) in units of `2^(e-2)`. -/
def ofBinary (v : BinaryValue) : RoundingInterval :=
  let m := v.significand
  let below := if v.atBinade then 1 else 2
  let shift := v.exponent - 2
  let scale := if 0 ≤ shift then Nat.pow 2 shift.toNat else 1
  let denominator := if 0 ≤ shift then 1 else Nat.pow 2 ((-shift).toNat)
  { low := (4 * m - below) * scale, value := 4 * m * scale, high := (4 * m + 2) * scale,
    denominator, closed := m % 2 = 0 }

/-- Whether `c · 10^p` lies in the interval, tested in integers: both sides are
multiplied by the denominator and by `10^(-p)` when `p` is negative. -/
def holds (r : RoundingInterval) (c : Nat) (p : Int) : Bool :=
  let lhs (x : Nat) := if 0 ≤ p then x else x * Nat.pow 10 ((-p).toNat)
  let point := if 0 ≤ p then c * Nat.pow 10 p.toNat * r.denominator else c * r.denominator
  if r.closed then lhs r.low ≤ point ∧ point ≤ lhs r.high
  else lhs r.low < point ∧ point < lhs r.high

/-- The value's two neighbours on the grid `ℕ · 10^p`, as counts of grid steps:
its floor, and its ceiling when it is not on the grid. -/
def neighbours (r : RoundingInterval) (p : Int) : Nat × Option Nat :=
  let num := if 0 ≤ p then r.value else r.value * Nat.pow 10 ((-p).toNat)
  let den := if 0 ≤ p then r.denominator * Nat.pow 10 p.toNat else r.denominator
  let q := num / den
  (q, if num % den = 0 then none else some (q + 1))

/-- Of two candidates in the interval, the one nearer the value; a tie goes to the
even count. Works on twice the distances so that no division is needed. -/
def nearer (r : RoundingInterval) (p : Int) (a b : Nat) : Nat :=
  let num := if 0 ≤ p then r.value else r.value * Nat.pow 10 ((-p).toNat)
  let den := if 0 ≤ p then r.denominator * Nat.pow 10 p.toNat else r.denominator
  -- distances scaled by `den`: `num - a·den` and `b·den - num`
  let da := num - a * den
  let db := b * den - num
  if da < db then a else if db < da then b else if a % 2 = 0 then a else b

/-- How many zeros follow the decimal point of a value below one before its first
digit: the least `z` with `1 ≤ value · 10^(z+1)`, searched up to `fuel`. -/
def leadingZeros (r : RoundingInterval) : Nat → Nat → Nat
  | 0, z => z
  | fuel + 1, z =>
    if r.denominator ≤ r.value * Nat.pow 10 (z + 1) then z else r.leadingZeros fuel (z + 1)

/-- The number of digits before the decimal point of the value, which may be zero or
negative: the `E` with `10^(E-1) ≤ value < 10^E`. A float below one has at most 330
zeros after the point. -/
def magnitude (r : RoundingInterval) : Int :=
  if r.denominator ≤ r.value then
    Decimal.digitCount (r.value / r.denominator)
  else
    -((r.leadingZeros 400 0 : Nat) : Int)

/-- The first grid, from `k` significant digits up to 17, that holds a point of the
interval, and the chosen point on it. -/
def search (r : RoundingInterval) (e : Int) : Nat → Nat → Option Decimal
  | 0, _ => none
  | fuel + 1, k =>
    let p := e - k
    let (lo, hi?) := r.neighbours p
    let loIn := r.holds lo p
    let hiIn := match hi? with | some hi => r.holds hi p | none => false
    match loIn, hiIn, hi? with
    | true, true, some hi => some ⟨r.nearer p lo hi, p⟩
    | true, _, _ => some ⟨lo, p⟩
    | false, true, some hi => some ⟨hi, p⟩
    | _, _, _ => search r e fuel (k + 1)

end RoundingInterval

namespace BinaryValue

/-- The shortest decimal that reads back as this value, the nearest one among several
of that length; `none` for zero. Its digits end in no zero. -/
def shortest? (v : BinaryValue) : Option Decimal :=
  if v.significand = 0 then none
  else
    let r := RoundingInterval.ofBinary v
    (r.search r.magnitude 17 1).map Decimal.normalize

end BinaryValue

end PatternChart
