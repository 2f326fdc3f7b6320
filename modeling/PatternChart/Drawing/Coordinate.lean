import PatternChart.Number.Measure
/-!
# Coordinates of a drawing

Drawing a laid-out diagram needs a little arithmetic on positions: sums and
differences, halves (a box is centred in its slot) and two thirds (the handles of a
connector's curve), and a way to write a number into the drawing. A `Coordinate` type
provides exactly these.

Two types are coordinates here.

* `Sixths` counts sixths of a pixel. Whole pixels, their halves and two thirds of a
  half-pixel distance are all whole numbers of sixths, so a diagram laid out in whole
  pixels is drawn without any rounding, and statements about the drawing are
  statements about integers.
* `Checked` draws with numbers as a caller gave them, whole or float, with the mixed
  arithmetic of `Measure`, and keeps the first fault that arithmetic meets.

Both write a number by one rule: a number within a billionth of an integer, relative
to the larger of the two, is written as that integer (the nearest one, a half going
to the even one); any other number is written with three decimals, a half going to
the even neighbour, and then stripped of trailing zeros and of a trailing point. So
`2.5` stays `2.5`, `1.0000000001` becomes `1`, and `-0.0001` becomes `-0`.
-/

set_option autoImplicit false

namespace PatternChart

/-- The arithmetic and the writing of positions in a drawing. -/
class Coordinate (β : Type) extends Add β, Sub β where
  /-- A whole number of pixels. -/
  ofInt : Int → β
  /-- Half of a length. -/
  half : β → β
  /-- Two thirds of a length, as twice the length divided by three. -/
  twoThirds : β → β
  /-- How the drawing writes the number. -/
  text : β → String

/-! ## Writing numbers -/

/-- Drops trailing zeros, then a trailing point, of a decimal that has a point. -/
def stripDecimal (s : String) : String :=
  let cs := (s.toList.reverse.dropWhile (· = '0')).dropWhile (· = '.')
  String.ofList cs.reverse

/-- The text of a signed number of thousandths with three decimals, then stripped;
`negative` gives the sign, which a value that rounds to zero keeps. -/
def thousandthsText (negative : Bool) (q : Int) : String :=
  let m := q.natAbs
  let frac := toString (m % 1000)
  let frac := String.ofList (List.replicate (3 - frac.length) '0') ++ frac
  stripDecimal ((if negative then "-" else "") ++ toString (m / 1000) ++ "." ++ frac)

/-- Whether `n / d` is within a billionth of the integer `r`, relative to the larger of
the two in size: `|n - d·r| · 10^9 ≤ max |n| |d·r|`. -/
def nearInteger (n : Int) (d : Nat) (r : Int) : Bool :=
  decide ((n - d * r).natAbs * Nat.pow 10 9 ≤ max n.natAbs (d * r).natAbs)

/-! ## Sixths of a pixel -/

/-- A position or length in sixths of a pixel. -/
structure Sixths where
  units : Int
  deriving DecidableEq, Repr

namespace Sixths

instance : Add Sixths := ⟨fun a b => ⟨a.units + b.units⟩⟩
instance : Sub Sixths := ⟨fun a b => ⟨a.units - b.units⟩⟩

/-- The number written for a length in sixths. -/
def text (s : Sixths) : String :=
  let r := roundHalfEven s.units 6
  if nearInteger s.units 6 r then toString r
  else thousandthsText (decide (s.units < 0)) (roundHalfEven (s.units * 1000) 6)

instance : Coordinate Sixths where
  ofInt n := ⟨6 * n⟩
  half s := ⟨s.units / 2⟩
  twoThirds s := ⟨s.units * 2 / 3⟩
  text := text

@[simp] theorem add_units (a b : Sixths) : (a + b).units = a.units + b.units := rfl
@[simp] theorem sub_units (a b : Sixths) : (a - b).units = a.units - b.units := rfl

end Sixths

/-! ## Measures as given -/

namespace Measure

/-- The number written for a finite float: the nearest integer when the float is close
to it by the float comparison `|r - x| ≤ 1e-9·|r|` or `≤ 1e-9·|x|`, else three decimals
of its exact value. -/
def floatText (v : BinaryValue) (x : Float) : String :=
  let r := v.roundToInt
  let rf := Float.ofInt r
  let diff := (rf - x).abs
  if rf == x || diff ≤ (1e-9 * rf).abs || diff ≤ (1e-9 * x).abs then toString r
  else
    let (n, d) := v.toFraction
    thousandthsText v.negative (roundHalfEven (n * 1000) d)

/-- The number written for a measure. Writing compares the number with its nearest
integer as floats, so it fails for a whole number too large for a float and for an
infinite or NaN float, which have no nearest integer. -/
def text? : Measure → Except NumberFault String
  | .whole n => do
    let _ ← wholeToFloat? n
    pure (toString n)
  | .float x =>
    match BinaryValue.ofFloat? x with
    | some v => .ok (floatText v x)
    | none => .error (if x.isNaN then .nanToWhole else .infiniteToWhole)

end Measure

/-- A measure computed from a caller's numbers, or the first fault met on the way.
Arithmetic on such values passes a fault on from its left operand first, which is the
order in which an expression is evaluated. -/
abbrev Checked := Except NumberFault Measure

namespace Checked

/-- Applies a fallible operation to two values, faults first from the left. -/
def lift₂ (op : Measure → Measure → Except NumberFault Measure) (a b : Checked) : Checked := do
  op (← a) (← b)

instance : Coordinate Checked where
  add := lift₂ Measure.add?
  sub := lift₂ Measure.sub?
  ofInt n := .ok (.whole n)
  half a := a >>= Measure.half?
  twoThirds a := a >>= Measure.twoThirds?
  text
    | .ok m => match m.text? with
      | .ok s => s
      | .error _ => ""
    | .error _ => ""

/-- The fault in computing a value, if any. -/
def fault? : Checked → Option NumberFault
  | .ok _ => none
  | .error f => some f

/-- The fault in computing a value, or else in writing it, if any. -/
def writeFault? : Checked → Option NumberFault
  | .ok m => match m.text? with
    | .ok _ => none
    | .error f => some f
  | .error f => some f

end Checked

end PatternChart
