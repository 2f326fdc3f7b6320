import PatternChart.Number.Binary
/-!
# The float nearest to a fraction

Every conversion of an exact number into binary64 here (a whole number used beside a
float, a true quotient of two whole numbers) rounds the exact value once: to the
nearest float, a tie going to the even significand. A value whose nearest float would
be `2^1024` or more has none, and the conversion says so instead of giving an
infinity, so that callers can refuse it.

The significand is found exactly: scale the fraction by a power of two until it lies
in `[2^52, 2^53)`, round the scaled quotient once, and carry into the exponent when
the rounding reaches `2^53`. Below the smallest normal exponent the power is held at
`2^-1074` and the significand shrinks, which gives the subnormals.
-/

set_option autoImplicit false

namespace PatternChart

namespace BinaryValue

/-- The scaled fraction `n / (d·2^e)` as a numerator and a denominator. -/
def scaled (n d : Nat) (e : Int) : Nat × Nat :=
  if 0 ≤ e then (n, d * Nat.pow 2 e.toNat) else (n * Nat.pow 2 (-e).toNat, d)

/-- The float with this sign, significand below `2^53` and exponent, built from its
bit fields; the significand is normal when it is at least `2^52`. -/
def toFloat (negative : Bool) (m : Nat) (e : Int) : Float :=
  let sign : Nat := if negative then Nat.pow 2 63 else 0
  let bits :=
    if m < Nat.pow 2 fractionBits then sign + m
    else sign + (e + 1075).toNat * Nat.pow 2 fractionBits + (m - Nat.pow 2 fractionBits)
  Float.ofBits bits.toUInt64

/-- The nearest float to `p / q` for `q > 0`, or `none` when that float would be
`2^1024` or more in size. -/
def nearest? (p : Int) (q : Nat) : Option Float :=
  let a := p.natAbs
  if a = 0 then some (if p < 0 then -0.0 else 0.0) else
  let e₀ : Int := (Nat.log2 a : Int) - Nat.log2 q - 52
  -- the scaled quotient at `e₀` lies in `[2^51, 2^53)`; step down once when below `2^52`
  let (n₀, d₀) := scaled a q e₀
  let e₁ := if n₀ < Nat.pow 2 fractionBits * d₀ then e₀ - 1 else e₀
  let e₂ := max e₁ (-1074)
  let (n, d) := scaled a q e₂
  let m := (roundHalfEven n d).toNat
  let (m, e) := if m = Nat.pow 2 (fractionBits + 1) then (Nat.pow 2 fractionBits, e₂ + 1) else (m, e₂)
  if 971 < e then none else some (toFloat (p < 0) m e)

end BinaryValue

end PatternChart
