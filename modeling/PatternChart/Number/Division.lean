import PatternChart.Number.Measure
/-!
# Floor division of measures by a count, and even shares

A surplus of width or height is shared among the children of a container by floor
division of its size by their number. On whole numbers that is `Int.fdiv`. On a float
it is what binary64 arithmetic gives, which is not always the floor of the exact
quotient: the exact truncated remainder is taken off first, the difference is divided
by the count (a rounding step), and the quotient is then snapped to an integer. For a
float above `2^53` the difference itself may round, so the share can differ from the
exact floor by a unit or more; an infinity or a NaN gives a NaN.

`Measure.evenShare` gives the share its surplus's sign, so that it is truncated
toward zero, and `Measure.clampAtZero` lifts a negative target to zero while it
keeps `-0.0` and a NaN as they are, since neither is below zero.
-/

set_option autoImplicit false

namespace PatternChart

/-- Whether the sign bit of a float is set, which tells `-0.0` from `0.0`. -/
def signBit (x : Float) : Bool :=
  decide (x.toBits.toNat / Nat.pow 2 63 % 2 = 1)

/-- The remainder of a float on division by a positive count `n`, exactly: `x - n·q`
for the integer `q` that truncates `x / n`. It has the sign of `x` and lies on the
grid of `x` below it in size, so it is itself a float; an infinity or a NaN gives a
NaN. -/
def truncatedRemainder (x : Float) (n : Nat) : Float :=
  match BinaryValue.ofFloat? x with
  | none => 0 / 0
  | some v =>
    let (p, q) := v.toFraction
    let r := p.tmod (n * q : Nat)
    match BinaryValue.nearest? r q with
    | some y => if r = 0 ∧ v.negative then -0.0 else y
    | none => x

/-- Floor division of a float by a positive count, the binary64 way: the truncated
remainder `r` is taken off and the difference divided by the count, one is taken
away when `r` is negative, and the quotient is snapped to its floor, or to one more
when it lies more than half above the floor. A zero quotient has the sign of `x`. -/
def floorQuotient (x : Float) (n : Nat) : Float :=
  let r := truncatedRemainder x n
  let q := (x - r) / Float.ofNat n
  let q := if r < 0 then q - 1 else q
  if q == 0 then (if signBit x then -0.0 else 0.0)
  else
    let f := q.floor
    if q - f > 0.5 then f + 1 else f

namespace Measure

/-- Whether a measure is below zero; `-0.0` and a NaN are not. -/
def isNegative : Measure → Bool
  | .whole n => decide (n < 0)
  | .float x => decide (x < 0)

/-- Whether a measure is zero or above; a NaN is not. -/
def isNonNegative : Measure → Bool
  | .whole n => decide (0 ≤ n)
  | .float x => decide (0 ≤ x)

/-- The greater of a measure and zero: zero replaces the measure only when it is below
zero, so `-0.0` and a NaN stay. -/
def clampAtZero (m : Measure) : Measure :=
  if m.isNegative then 0 else m

/-- The size of a measure. -/
def abs : Measure → Measure
  | .whole n => .whole n.natAbs
  | .float x => .float x.abs

/-- The measure with its sign turned. -/
def neg : Measure → Measure
  | .whole n => .whole (-n)
  | .float x => .float (-x)

/-- Floor division by a positive count: exact on a whole number, the binary64 way on a
float. -/
def floorDiv (m : Measure) (n : Nat) : Measure :=
  match m with
  | .whole a => .whole (a.fdiv n)
  | .float x => .float (floorQuotient x n)

/-- An even share of a surplus among `n` parts: the floor of its size over `n`, with
the surplus's sign, which truncates toward zero; zero for no parts. A surplus that is
not at least zero, a NaN among them, gets the share turned. -/
def evenShare (surplus : Measure) (n : Nat) : Measure :=
  if n = 0 then 0 else
  let share := surplus.abs.floorDiv n
  if surplus.isNonNegative then share else share.neg

/-- On whole numbers the share is the truncated quotient. -/
theorem evenShare_whole (s : Int) (n : Nat) :
    evenShare (.whole s) n = .whole (if n = 0 then 0 else s.tdiv n) := by
  unfold evenShare
  by_cases hn : n = 0
  · simp [hn]; rfl
  · simp only [hn, if_false, abs, floorDiv, isNonNegative, neg, decide_eq_true_eq]
    split
    · rename_i h
      rw [Int.natAbs_of_nonneg h, Int.fdiv_eq_ediv_of_nonneg _ (Int.natCast_nonneg n),
        Int.tdiv_eq_ediv_of_nonneg h]
    · rename_i h
      have hs : ((s.natAbs : Int)) = -s := by omega
      rw [hs, Int.fdiv_eq_ediv_of_nonneg _ (Int.natCast_nonneg n),
        ← Int.tdiv_eq_ediv_of_nonneg (by omega), Int.neg_tdiv, Int.neg_neg]

end Measure

end PatternChart
