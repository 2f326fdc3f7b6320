import PatternChart.Number.Round
/-!
# A binary64 float taken apart

A finite float is exactly `±significand · 2^exponent`. This module reads that triple
off the float's bit pattern, so that every later computation on the float's value
(its shortest decimal digits, its nearest integer, its value to three places) is
exact integer arithmetic on the triple and never goes through a float operation
whose rounding it would have to trust.
-/

set_option autoImplicit false

namespace PatternChart

/-- The exact value of a finite binary64 float: `(-1)^negative · significand · 2^exponent`.
Zero keeps its sign bit, which is how `-0.0` stays apart from `0.0`. -/
structure BinaryValue where
  negative : Bool
  significand : Nat
  exponent : Int
  deriving DecidableEq, Repr

namespace BinaryValue

/-- Fields of the binary64 layout: 52 fraction bits, an 11-bit biased exponent. -/
def fractionBits : Nat := 52

/-- Takes a float apart, or gives `none` for an infinity or a NaN. Subnormals have the
fixed exponent `-1074`; a normal float carries the hidden leading bit. -/
def ofFloat? (x : Float) : Option BinaryValue :=
  let bits := x.toBits.toNat
  let negative := decide (bits / Nat.pow 2 63 % 2 = 1)
  let biased := bits / Nat.pow 2 fractionBits % 2048
  let fraction := bits % Nat.pow 2 fractionBits
  if biased = 2047 then none
  else if biased = 0 then some ⟨negative, fraction, -1074⟩
  else some ⟨negative, fraction + Nat.pow 2 fractionBits, (biased : Int) - 1075⟩

/-- Whether the float's bit pattern has the smallest exponent and a zero fraction above
the hidden bit: then the gap to the next smaller float is half the gap to the next
larger one. -/
def atBinade (v : BinaryValue) : Bool :=
  v.significand = Nat.pow 2 fractionBits && decide (-1074 < v.exponent)

/-- The value as a signed numerator over a power-of-two denominator. -/
def toFraction (v : BinaryValue) : Int × Nat :=
  let magnitude : Int :=
    if 0 ≤ v.exponent then (v.significand * Nat.pow 2 v.exponent.toNat : Nat) else v.significand
  let denominator := if 0 ≤ v.exponent then 1 else Nat.pow 2 ((-v.exponent).toNat)
  (if v.negative then -magnitude else magnitude, denominator)

/-- The integer nearest to the value, a half going to the even neighbour. -/
def roundToInt (v : BinaryValue) : Int :=
  let (n, d) := v.toFraction
  roundHalfEven n d

end BinaryValue

end PatternChart
