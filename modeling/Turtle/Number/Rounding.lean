import Turtle.Number.Power

/-! Rounding of exact quotients and square roots of natural numbers.
Both are pinned by inequalities; nothing here knows about floating point. -/
namespace Turtle

/-- The quotient rounded to the nearest integer, a tie to the even neighbour. -/
def roundDiv (num den : Nat) : Nat :=
  let whole := num / den
  let rest := num % den
  if 2 * rest < den then whole
  else if den < 2 * rest then whole + 1
  else whole + whole % 2

theorem roundDiv_one (n : Nat) : roundDiv n 1 = n := by
  simp [roundDiv, Nat.mod_one]

theorem div_le_roundDiv (num den : Nat) : num / den ≤ roundDiv num den := by
  unfold roundDiv
  dsimp only
  split
  · omega
  · split <;> omega

/-- The integer part of the square root of a number below `2 ^ (2 * digits)`, one base-four digit
at a time. -/
def floorSqrt : (digits n : Nat) → Nat
  | 0, _ => 0
  | digits + 1, n =>
    let root := 2 * floorSqrt digits (n / 4)
    if (root + 1) * (root + 1) ≤ n then root + 1 else root

theorem floorSqrt_sq_le (digits n : Nat) : floorSqrt digits n * floorSqrt digits n ≤ n := by
  induction digits generalizing n with
  | zero => simp [floorSqrt]
  | succ digits ih =>
    have below := ih (n / 4)
    unfold floorSqrt
    dsimp only
    split
    · assumption
    · have square : 2 * floorSqrt digits (n / 4) * (2 * floorSqrt digits (n / 4))
          = 4 * (floorSqrt digits (n / 4) * floorSqrt digits (n / 4)) := by
        rw [Nat.mul_mul_mul_comm]
      omega

theorem lt_floorSqrt_succ_sq (digits n : Nat) (bound : n < twoTo (2 * digits)) :
    n < (floorSqrt digits n + 1) * (floorSqrt digits n + 1) := by
  induction digits generalizing n with
  | zero =>
    have zero : n = 0 := by simpa [twoTo] using bound
    simp [floorSqrt, zero]
  | succ digits ih =>
    have smaller : n / 4 < twoTo (2 * digits) := by
      rw [show 2 * (digits + 1) = 2 * digits + 1 + 1 by omega, twoTo_succ, twoTo_succ] at bound
      omega
    have above := ih (n / 4) smaller
    unfold floorSqrt
    dsimp only
    split
    · have square : (2 * floorSqrt digits (n / 4) + 1 + 1) * (2 * floorSqrt digits (n / 4) + 1 + 1)
          = 4 * ((floorSqrt digits (n / 4) + 1) * (floorSqrt digits (n / 4) + 1)) := by
        rw [show 2 * floorSqrt digits (n / 4) + 1 + 1 = 2 * (floorSqrt digits (n / 4) + 1) by omega,
          Nat.mul_mul_mul_comm]
      omega
    · omega

end Turtle
