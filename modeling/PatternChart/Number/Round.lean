/-!
# Rounding a quotient to the nearest integer

Every place where this library turns an exact value into fewer digits (a pixel count
scaled for a bitmap, a coordinate written with three decimals, a binary float written
as a whole number) settles a half the same way: it goes to the even neighbour. The
one function here does that for a quotient `n / d` of integers, and its laws say that
the result is within half a unit and that a tie lands on an even integer.
-/

set_option autoImplicit false

namespace PatternChart

/-- The integer nearest to `n / d`, where a quotient exactly halfway between two
integers goes to the even one. A zero divisor gives `0`, which no caller passes. -/
def roundHalfEven (n : Int) (d : Nat) : Int :=
  let q := n / d
  let r := n % d
  if 2 * r < d then q
  else if (d : Int) < 2 * r then q + 1
  else if q % 2 = 0 then q else q + 1

/-- Rounding a quotient by one is the identity. -/
@[simp] theorem roundHalfEven_one (n : Int) : roundHalfEven n 1 = n := by
  simp [roundHalfEven]

/-- **Within half a unit.** The rounded value differs from `n / d` by at most a half,
stated without division: `|n - d·q| ≤ d/2` as `2·|n - d·q| ≤ d`. -/
theorem roundHalfEven_near (n : Int) (d : Nat) (hd : 0 < d) :
    2 * (n - d * roundHalfEven n d) ≤ d ∧ -(d : Int) ≤ 2 * (n - d * roundHalfEven n d) := by
  have hd' : (0 : Int) < d := by exact_mod_cast hd
  have hdiv := Int.mul_ediv_add_emod n d
  have hlo := Int.emod_nonneg n (Int.ne_of_gt hd')
  have hhi := Int.emod_lt_of_pos n hd'
  unfold roundHalfEven
  generalize n / d = q at *
  generalize n % d = r at *
  simp only
  split
  · constructor <;> omega
  · split
    · rw [Int.mul_add]; constructor <;> omega
    · split
      · constructor <;> omega
      · rw [Int.mul_add]; constructor <;> omega

end PatternChart
