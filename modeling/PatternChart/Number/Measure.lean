import PatternChart.Number.Shortest
import PatternChart.Number.Nearest
/-!
# Measures: whole numbers and binary floats

A caller hands geometry over either as whole numbers or as binary64 floats, and the
two stay apart: a whole number is exact at any size, and a float is what it is. The
arithmetic mixes them the usual way: two whole numbers add to a whole number, while
anything that touches a float, and every true division, is carried out in binary64.
A whole number meets a float only through its nearest float, and a true quotient is
rounded once from its exact value; either fails when that float would be infinite,
and rounding an infinite float or a NaN to an integer fails too.

A measure also has a literal form, the way it is written back in a message. A whole
number is its decimal digits. A float is written with the fewest digits that read
back, positional while its decimal point sits between four places after the first
digit's column and sixteen places before it, and scientific (`1e-05`, `1e+16`)
outside that; a positional float that is whole keeps `.0`, so `0` and `0.0` are told
apart.
-/

set_option autoImplicit false

namespace PatternChart

/-- A length or position as given: a whole number, or a binary64 float. -/
inductive Measure where
  | whole (n : Int)
  | float (x : Float)

/-- Why arithmetic on measures, or rounding one to an integer, cannot go on. -/
inductive NumberFault where
  /-- A whole number is too large for a float. -/
  | wholeTooLarge
  /-- A true quotient of whole numbers is too large for a float. -/
  | quotientTooLarge
  /-- An infinite float has no nearest integer. -/
  | infiniteToWhole
  /-- A NaN has no nearest integer. -/
  | nanToWhole
  deriving DecidableEq, Repr

namespace Measure

instance : Inhabited Measure := ⟨.whole 0⟩
instance (n : Nat) : OfNat Measure n := ⟨.whole n⟩

/-- The nearest float to a whole number, a half going to the even significand. -/
def wholeToFloat? (n : Int) : Except NumberFault Float :=
  match BinaryValue.nearest? n 1 with
  | some x => .ok x
  | none => .error .wholeTooLarge

/-- The nearest float to a true quotient of whole numbers. -/
def quotient? (n : Int) (d : Nat) : Except NumberFault Measure :=
  match BinaryValue.nearest? n d with
  | some x => .ok (.float x)
  | none => .error .quotientTooLarge

/-- The measure as a float. -/
def toFloat? : Measure → Except NumberFault Float
  | .whole n => wholeToFloat? n
  | .float x => .ok x

/-- Whole numbers add exactly; otherwise both sides become floats first. -/
def add? : Measure → Measure → Except NumberFault Measure
  | .whole a, .whole b => .ok (.whole (a + b))
  | a, b => do pure (.float ((← a.toFloat?) + (← b.toFloat?)))

/-- Whole numbers subtract exactly; otherwise both sides become floats first. -/
def sub? : Measure → Measure → Except NumberFault Measure
  | .whole a, .whole b => .ok (.whole (a - b))
  | a, b => do pure (.float ((← a.toFloat?) - (← b.toFloat?)))

/-- Whole numbers multiply exactly; otherwise both sides become floats first. -/
def mul? : Measure → Measure → Except NumberFault Measure
  | .whole a, .whole b => .ok (.whole (a * b))
  | a, b => do pure (.float ((← a.toFloat?) * (← b.toFloat?)))

/-- True division by two, which gives a float: the exact half of a whole number
rounded once, or half a float. -/
def half? : Measure → Except NumberFault Measure
  | .whole n => quotient? n 2
  | .float x => .ok (.float (x / 2))

/-- Two thirds of a measure, as twice the measure divided by three. -/
def twoThirds? : Measure → Except NumberFault Measure
  | .whole n => quotient? (2 * n) 3
  | .float x => .ok (.float (x * 2 / 3))

/-- Whether a measure is zero or below; a NaN is neither. -/
def isNonPositive : Measure → Bool
  | .whole n => decide (n ≤ 0)
  | .float x => decide (x ≤ 0)

/-- The integer nearest to a measure, a half going to the even one. -/
def round? : Measure → Except NumberFault Int
  | .whole n => .ok n
  | .float x =>
    match BinaryValue.ofFloat? x with
    | some v => .ok v.roundToInt
    | none => .error (if x.isNaN then .nanToWhole else .infiniteToWhole)

end Measure

/-! ## The literal form of a float -/

/-- Where a float literal switches notation, and how its exponent is written. -/
structure FloatNotation where
  /-- Positional notation is used for point positions `p` with `minPoint < p ≤ maxPoint`. -/
  minPoint : Int
  maxPoint : Int
  /-- Least number of exponent digits in scientific notation. -/
  exponentWidth : Nat

/-- Positional from `1e-4` up to below `1e16`, two exponent digits at least. -/
def FloatNotation.standard : FloatNotation := ⟨-4, 16, 2⟩

namespace Decimal

/-- A run of `n` zeros. -/
def zeros (n : Nat) : String := String.ofList (List.replicate n '0')

/-- The decimal written by the notation's rule, without a sign. -/
def literal (f : FloatNotation) (d : Decimal) : String :=
  let ds := digitText d.digits
  let n := ds.length
  let p := d.pointPosition
  if f.minPoint < p ∧ p ≤ f.maxPoint then
    if p ≤ 0 then "0." ++ zeros (-p).toNat ++ ds
    else if n ≤ p.toNat then ds ++ zeros (p.toNat - n) ++ ".0"
    else String.ofList (ds.toList.take p.toNat) ++ "." ++ String.ofList (ds.toList.drop p.toNat)
  else
    let mantissa :=
      if n = 1 then ds
      else String.ofList (ds.toList.take 1) ++ "." ++ String.ofList (ds.toList.drop 1)
    let e := p - 1
    let eDigits := digitText e.natAbs
    mantissa ++ "e" ++ (if e < 0 then "-" else "+") ++
      zeros (f.exponentWidth - eDigits.length) ++ eDigits

end Decimal

/-- The literal of a float: its shortest digits in standard notation, with a sign
when negative, `0.0` and `-0.0` for zeros, and `inf`, `-inf` and `nan` otherwise. -/
def floatLiteral (x : Float) : String :=
  match BinaryValue.ofFloat? x with
  | none => if x.isNaN then "nan" else if 0 < x then "inf" else "-inf"
  | some v =>
    let sign := if v.negative then "-" else ""
    match v.shortest? with
    | none => sign ++ "0.0"
    | some d => sign ++ d.literal FloatNotation.standard

namespace Measure

/-- The literal form of a measure: decimal digits for a whole number, the float
literal for a float. -/
def literal : Measure → String
  | .whole n => toString n
  | .float x => floatLiteral x

end Measure

end PatternChart
