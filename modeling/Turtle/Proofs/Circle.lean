import Mathlib.Analysis.Complex.Trigonometric
import Mathlib.Tactic.FieldSimp
import Mathlib.Tactic.LinearCombination
import Turtle.Number.Circle
import Turtle.Proofs.Number.Value

/-! Sine and cosine lie on the circle.
In fixed point the sum of their squares is one but for a few units in a place far behind the last
one of a single. Both series are summed in the shape of the exponential series of an imaginary
number, whose value has norm one; how exact the quarter turn is does not matter, since an angle that
is turned back by quarter turns is small whichever angle it is. -/
namespace Turtle.Circle

theorem one_positive : 0 < one := twoTo_pos _

/-- Close numbers have close squares. -/
theorem sq_close {K : Type} [Field K] [LinearOrder K] [IsStrictOrderedRing K] {x y e : K}
    (narrow : e ≤ 2) (close : |x - y| ≤ e) (small : |y| ≤ 1) : |x ^ 2 - y ^ 2| ≤ 4 * e := by
  have sum : |x + y| ≤ 4 := by
    calc |x + y| = |(x - y) + 2 * y| := by ring_nf
      _ ≤ |x - y| + |2 * y| := abs_add_le _ _
      _ ≤ 2 + 2 * 1 := by
        rw [abs_mul, abs_two]
        gcongr
        exact close.trans narrow
      _ = 4 := by norm_num
  calc |x ^ 2 - y ^ 2| = |x + y| * |x - y| := by rw [← abs_mul]; ring_nf
    _ ≤ 4 * e := mul_le_mul sum close (abs_nonneg _) zero_le_four

section Series

/-- The series without rounding. -/
noncomputable def exact (r : ℝ) : (terms k : Nat) → ℝ
  | 0, _ => 1
  | terms + 1, k => 1 - r / (k * (k + 1)) * exact r terms (k + 2)

/-- One term more keeps half of the error, and rounding adds a unit. -/
theorem step_close {N s a m : Nat} {x : ℝ} (positive : 0 < N) (small : s ≤ N) (fits : a ≤ N)
    (double : 2 ≤ m) (close : |(a / N : ℝ) - x| ≤ 2 / N) :
    |((N - s * a / N / m : Nat) / N : ℝ) - (1 - s / N / m * x)| ≤ 2 / N := by
  have wide : 0 < N * m := Nat.mul_pos positive (by omega)
  rw [Nat.div_div_eq_div_mul]
  have low : s * a / (N * m) * (N * m) ≤ s * a := Nat.div_mul_le_self _ _
  have high : s * a < (N * m) * (s * a / (N * m) + 1) := Nat.lt_mul_div_succ _ wide
  have below : s * a / (N * m) ≤ N := by
    apply Nat.div_le_of_le_mul
    calc s * a ≤ N * N := Nat.mul_le_mul small fits
      _ ≤ N * m * N := Nat.mul_le_mul_right _ (Nat.le_mul_of_pos_right _ (by omega))
  generalize s * a / (N * m) = q at low high below
  have unit : (0 : ℝ) < N := Nat.cast_pos.mpr positive
  have part : (2 : ℝ) ≤ m := by exact_mod_cast double
  have share : (s / N / m : ℝ) ≤ 1 / 2 := by
    have less : (s / N : ℝ) ≤ 1 := (div_le_one unit).mpr (by exact_mod_cast small)
    rw [div_le_iff₀ (by linarith)]
    linarith
  have above : (q * (N * m) : ℝ) ≤ s * a := by exact_mod_cast low
  have under : (s * a : ℝ) ≤ N * m * (q + 1) := by exact_mod_cast high.le
  have rest : (N - q : ℝ) / N - (1 - s / N / m * x)
      = (s * a - q * (N * m)) / (N * m) / N - s / N / m * (a / N - x) := by
    field_simp
    ring
  have first : |(s * a - q * (N * m) : ℝ) / (N * m) / N| ≤ 1 / N := by
    rw [abs_of_nonneg (by have := sub_nonneg.mpr above; positivity)]
    gcongr
    rw [div_le_one (by positivity)]
    linarith
  have second : |(s / N / m * (a / N - x) : ℝ)| ≤ 1 / 2 * (2 / N) := by
    rw [abs_mul, abs_of_nonneg (by positivity : (0 : ℝ) ≤ s / N / m)]
    gcongr
  rw [Nat.cast_sub below, rest]
  calc _ ≤ 1 / N + 1 / 2 * (2 / N : ℝ) := (abs_sub _ _).trans (add_le_add first second)
    _ = 2 / N := by ring

theorem series_bounds {s : Nat} (small : s ≤ one) (terms k : Nat) (positive : 0 < k) :
    series s terms k ≤ one ∧
      |(series s terms k / one : ℝ) - exact (s / one) terms k| ≤ 2 / one := by
  have unit : (0 : ℝ) < one := Nat.cast_pos.mpr one_positive
  induction terms generalizing k with
  | zero =>
    simp only [series, exact, div_self unit.ne', sub_self, abs_zero, le_refl, true_and]
    exact div_nonneg zero_le_two unit.le
  | succ terms ih =>
    obtain ⟨fits, close⟩ := ih (k + 2) (by omega)
    have double : 2 ≤ k * (k + 1) := by nlinarith
    refine ⟨Nat.sub_le _ _, ?_⟩
    simpa [series, exact] using step_close one_positive small fits double close

/-- The exponential series from a term on, in the same shape. -/
noncomputable def tail (z : ℂ) : (terms k : Nat) → ℂ
  | 0, _ => 1
  | terms + 1, k => 1 + z / k * tail z terms (k + 1)

theorem sum_eq_tail (z : ℂ) (terms k : Nat) :
    ∑ m ∈ Finset.range (k + 1 + terms), z ^ m / m.factorial
      = ∑ m ∈ Finset.range k, z ^ m / m.factorial + z ^ k / k.factorial * tail z terms (k + 1) := by
  induction terms generalizing k with
  | zero => simp [tail, Finset.sum_range_succ]
  | succ terms ih =>
    rw [show k + 1 + (terms + 1) = k + 1 + 1 + terms by omega, ih, Finset.sum_range_succ, tail,
      Nat.factorial_succ, pow_succ]
    have proper : ((k + 1 : Nat) : ℂ) ≠ 0 := Nat.cast_ne_zero.mpr (Nat.succ_ne_zero k)
    have whole : (k.factorial : ℂ) ≠ 0 := Nat.cast_ne_zero.mpr (Nat.factorial_ne_zero k)
    push_cast at proper ⊢
    field_simp
    ring

/-- Of an imaginary number, the even terms are those of the cosine and the odd ones those of the
sine. -/
theorem tail_eq_exact {z : ℂ} {r : ℝ} (square : z ^ 2 = -r) (terms k : Nat) :
    tail z (2 * terms + 1) k = exact r terms k + z / k * exact r terms (k + 1) := by
  induction terms generalizing k with
  | zero => simp [tail, exact]
  | succ terms ih =>
    have rest := ih (k + 2)
    rw [show 2 * (terms + 1) + 1 = 2 * terms + 1 + 1 + 1 by omega, tail, tail, rest, exact, exact]
    push_cast
    simp only [div_eq_mul_inv, mul_inv]
    linear_combination (((k : ℂ)⁻¹ * (k + 1 : ℂ)⁻¹) * exact r terms (k + 2)
      + z * (k : ℂ)⁻¹ * (k + 1 : ℂ)⁻¹ * (k + 2 : ℂ)⁻¹ * exact r terms (k + 3)) * square

theorem exp_close {z : ℂ} (small : ‖z‖ ≤ 1) :
    ‖Complex.exp z - tail z (2 * terms + 1) 1‖ ≤ 1 / 2 ^ 102 := by
  have sum := sum_eq_tail z (2 * terms + 1) 0
  simp only [Finset.range_zero, Finset.sum_empty, zero_add, pow_zero, Nat.factorial_zero,
    Nat.cast_one, div_one, one_mul] at sum
  have count : (1 + (2 * terms + 1)) = 162 := rfl
  have long : (2 ^ 103 : ℝ) ≤ Nat.factorial 162 := by norm_num [Nat.factorial]
  have shorter : ‖z‖ / (162 : Nat).succ ≤ 1 / 2 := by
    rw [div_le_iff₀ (by positivity)]
    push_cast
    linarith
  rw [← sum, count]
  calc ‖Complex.exp z - ∑ m ∈ Finset.range 162, z ^ m / m.factorial‖
      ≤ ‖z‖ ^ 162 / Nat.factorial 162 * 2 := Complex.exp_bound' shorter
    _ ≤ 1 / 2 ^ 103 * 2 := by
        gcongr
        exact pow_le_one₀ (norm_nonneg z) small
    _ = 1 / 2 ^ 102 := by ring

/-- The two series together come to an exponential of norm one. -/
theorem exact_on_circle {r : ℝ} (nonneg : 0 ≤ r) (small : r ≤ 1) :
    |exact r terms 1 ^ 2 + r * exact r terms 2 ^ 2 - 1| ≤ 1 / 2 ^ 100 := by
  have real : √r ^ 2 = r := Real.sq_sqrt nonneg
  have square : (√r * Complex.I) ^ 2 = -(r : ℂ) := by
    rw [mul_pow, Complex.I_sq, ← Complex.ofReal_pow, real]
    ring
  have root : ‖√r * Complex.I‖ ≤ 1 := by
    rw [Complex.norm_mul, Complex.norm_I, mul_one, Complex.norm_of_nonneg (Real.sqrt_nonneg r)]
    exact Real.sqrt_le_one.mpr small
  have near := exp_close root
  have whole : tail (√r * Complex.I) (2 * terms + 1) 1
      = (exact r terms 1 : ℝ) + (√r * exact r terms 2 : ℝ) * Complex.I := by
    rw [tail_eq_exact square]
    push_cast
    ring
  have turned := abs_norm_sub_norm_le (Complex.exp (√r * Complex.I))
    (tail (√r * Complex.I) (2 * terms + 1) 1)
  rw [Complex.norm_exp_ofReal_mul_I, whole, Complex.norm_add_mul_I] at turned
  rw [whole] at near
  have length : exact r terms 1 ^ 2 + (√r * exact r terms 2) ^ 2
      = exact r terms 1 ^ 2 + r * exact r terms 2 ^ 2 := by
    rw [mul_pow, real]
  rw [length] at turned
  have nonneg' : 0 ≤ exact r terms 1 ^ 2 + r * exact r terms 2 ^ 2 := by positivity
  generalize exact r terms 1 ^ 2 + r * exact r terms 2 ^ 2 = l at turned nonneg' ⊢
  have close : |√l - 1| ≤ 1 / 2 ^ 102 := abs_sub_comm (√l) 1 ▸ turned.trans near
  have squares := sq_close (by norm_num) close (abs_le.mpr ⟨by norm_num, le_refl (1 : ℝ)⟩)
  rw [Real.sq_sqrt nonneg', one_pow] at squares
  exact squares.trans (by norm_num)

end Series

/-- A point whose coordinates are off by a little: `t` is the angle and `r` its square, `s` and `c`
are the sums of the series and `y` is the sine. -/
theorem near_circle {t r s c y x z e : ℝ} (fine : e ≤ 1 / 2 ^ 100) (angle : |t| ≤ 1)
    (ratio : 0 ≤ r ∧ r ≤ 1) (square : |t ^ 2 - r| ≤ e) (first : |x - c| ≤ 2 * e)
    (second : |z - s| ≤ 2 * e) (short : |c| ≤ 1) (short' : |s| ≤ 1) (product : |y - t * s| ≤ e)
    (circle : |x ^ 2 + r * z ^ 2 - 1| ≤ 1 / 2 ^ 100) : |y ^ 2 + c ^ 2 - 1| ≤ 1 / 2 ^ 90 := by
  have bounded : |t * s| ≤ 1 := by
    rw [abs_mul]
    exact mul_le_one₀ angle (abs_nonneg s) short'
  have sine := sq_close (by linarith) product bounded
  have cosine := sq_close (by linarith) first short
  have other := sq_close (by linarith) second short'
  have turned : |(t ^ 2 - r) * s ^ 2| ≤ e := by
    rw [abs_mul, abs_of_nonneg (sq_nonneg s)]
    have factor : s ^ 2 ≤ 1 := (sq_le_one_iff_abs_le_one s).mpr short'
    exact (mul_le_of_le_one_right (abs_nonneg _) factor).trans square
  have scaled : |r * (z ^ 2 - s ^ 2)| ≤ 4 * (2 * e) := by
    rw [abs_mul, abs_of_nonneg ratio.1]
    exact (mul_le_of_le_one_left (abs_nonneg _) ratio.2).trans other
  rw [abs_le] at *
  constructor <;> linarith

theorem abs_div_le_one {n : ℝ} {a : ℝ} (positive : 0 < n) (small : |a| ≤ n) : |a / n| ≤ 1 := by
  rw [abs_div, abs_of_pos positive]
  exact (div_le_one positive).mpr small

/-- A quotient that is rounded down, as a part of the whole. -/
theorem abs_floor_sub_le {n q a : ℝ} (positive : 0 < n) (low : q * n ≤ a) (high : a ≤ n * (q + 1)) :
    |q / n - a / n ^ 2| ≤ 1 / n := by
  have part : q / n - a / n ^ 2 = -((a - q * n) / n) / n := by
    field_simp
    ring
  have nonneg := div_nonneg (by linarith : 0 ≤ a - q * n) positive.le
  rw [part, abs_div, abs_neg, abs_of_pos positive, abs_of_nonneg nonneg]
  gcongr
  rw [div_le_one positive]
  linarith

theorem ofSmall_near {angle : Int} (small : angle.natAbs ≤ one) :
    |((ofSmall angle).1 / one : ℝ) ^ 2 + ((ofSmall angle).2 / one : ℝ) ^ 2 - 1| ≤ 1 / 2 ^ 90 := by
  have positive := one_positive
  have fine : 2 ^ 100 ≤ one := by decide
  unfold ofSmall
  dsimp only
  have bounds {s : Nat} (fits : s ≤ one) := series_bounds fits terms
  have circle {r : ℝ} := exact_on_circle (r := r)
  generalize one = n at *
  have unit : (0 : ℝ) < n := Nat.cast_pos.mpr positive
  have thin : (1 / n : ℝ) ≤ 1 / 2 ^ 100 := by
    gcongr
    exact_mod_cast fine
  have fits : angle.natAbs * angle.natAbs / n ≤ n :=
    Nat.div_le_of_le_mul (Nat.mul_le_mul small small)
  have square : ((angle.natAbs * angle.natAbs : Nat) : ℝ) = (angle : ℝ) ^ 2 := by
    rw [Nat.cast_mul, Nat.cast_natAbs, Int.cast_abs, abs_mul_abs_self, sq]
  have bounded : |(angle : ℝ)| ≤ n := by
    rw [← Int.cast_abs, Int.abs_eq_natAbs]
    exact_mod_cast small
  have low : ((angle.natAbs * angle.natAbs / n : Nat) * n : ℝ) ≤ (angle : ℝ) ^ 2 := by
    rw [← square]
    exact_mod_cast Nat.div_mul_le_self _ _
  have high : (angle : ℝ) ^ 2 ≤ n * ((angle.natAbs * angle.natAbs / n : Nat) + 1) := by
    rw [← square]
    exact_mod_cast (Nat.lt_mul_div_succ _ positive).le
  generalize angle.natAbs * angle.natAbs / n = q at fits low high ⊢
  obtain ⟨within, close⟩ := bounds fits 1 one_pos
  obtain ⟨within', close'⟩ := bounds fits 2 two_pos
  generalize series q terms 1 = c at within close ⊢
  generalize series q terms 2 = s at within' close' ⊢
  have ratio : (0 : ℝ) ≤ q / n ∧ (q / n : ℝ) ≤ 1 :=
    ⟨by positivity, (div_le_one unit).mpr (by exact_mod_cast fits)⟩
  have floor : ((angle * s / n : Int) * n : ℝ) ≤ angle * s := by
    exact_mod_cast Int.ediv_mul_le (angle * s) (by omega : (n : Int) ≠ 0)
  have floor' : (angle * s : ℝ) ≤ n * ((angle * s / n : Int) + 1) := by
    rw [mul_comm (n : ℝ)]
    exact_mod_cast (Int.lt_ediv_add_one_mul_self (angle * s) (by omega : 0 < (n : Int))).le
  have angles := abs_floor_sub_le unit low high
  have products := abs_floor_sub_le unit floor floor'
  have short {a : Nat} (within : a ≤ n) : |(a / n : ℝ)| ≤ 1 := by
    apply abs_div_le_one unit
    rw [Nat.abs_cast]
    exact_mod_cast within
  rw [Int.cast_natCast]
  refine near_circle thin (abs_div_le_one unit bounded) ratio ?_ ?_ ?_ (short within)
    (short within') ?_ (circle ratio.1 ratio.2)
  · rw [div_pow, abs_sub_comm]
    exact angles
  · rw [abs_sub_comm, mul_one_div]
    exact close
  · rw [abs_sub_comm, mul_one_div]
    exact close'
  · rw [div_mul_div_comm, ← sq]
    exact products

theorem quarterTurn_bounds : 0 < quarterTurn ∧ quarterTurn ≤ 2 * one := by decide +kernel

/-- What is left of an angle when the nearest whole number of quarter turns is taken off. -/
theorem natAbs_sub_turns_le (angle : Nat) :
    ((angle : Int) - ((2 * angle + quarterTurn) / (2 * quarterTurn) : Nat) * quarterTurn).natAbs
      ≤ one := by
  obtain ⟨positive, bounded⟩ := quarterTurn_bounds
  generalize quarterTurn = q at positive bounded ⊢
  generalize one = n at bounded ⊢
  have low := Nat.div_mul_le_self (2 * angle + q) (2 * q)
  have high := Nat.lt_mul_div_succ (2 * angle + q) (by omega : 0 < 2 * q)
  generalize (2 * angle + q) / (2 * q) = turns at low high ⊢
  have half : turns * (2 * q) = 2 * (turns * q) := Nat.mul_left_comm _ _ _
  have other : 2 * q * (turns + 1) = 2 * (turns * q) + 2 * q := by ring
  rw [half] at low
  rw [other] at high
  rw [← Nat.cast_mul]
  omega

/-- A point of sine and cosine, next to the circle. -/
def OnCircle (p : Int × Int) : Prop :=
  |(p.1 / one : ℚ) ^ 2 + (p.2 / one : ℚ) ^ 2 - 1| ≤ 1 / 2 ^ 90

theorem onCircle_ofSmall {angle : Int} (small : angle.natAbs ≤ one) : OnCircle (ofSmall angle) := by
  have real := ofSmall_near small
  unfold OnCircle
  generalize ofSmall angle = p at real ⊢
  generalize one = n at real ⊢
  have cast : ((|(p.1 / n : ℚ) ^ 2 + (p.2 / n : ℚ) ^ 2 - 1| : ℚ) : ℝ) ≤ (1 / 2 ^ 90 : ℚ) := by
    push_cast
    exact real
  exact Rat.cast_le.mp cast

theorem OnCircle.turn {s c : Int} (near : OnCircle (s, c)) : OnCircle (c, -s) := by
  unfold OnCircle at near ⊢
  rwa [Int.cast_neg, neg_div, neg_sq, add_comm]

theorem onCircle_point (angle : Nat) : OnCircle (point angle) := by
  have small := natAbs_sub_turns_le angle
  unfold point
  generalize quarterTurn = q at small ⊢
  dsimp only
  generalize (2 * angle + q) / (2 * q) = turns at small ⊢
  have near := onCircle_ofSmall small
  generalize ofSmall (angle - turns * q) = p at near ⊢
  split
  · exact near
  · exact near.turn
  · exact near.turn.turn
  · simpa using near.turn.turn.turn

variable {F : Format}

theorem toNumber_rounded (value : Int) (flip : Bool) :
    ∃ r : ℚ, (toNumber value flip : Number F).Rounded r ∧ r ^ 2 = (value / one : ℚ) ^ 2 := by
  have unit := F.unit_cast_pos.ne'
  refine ⟨_, ⟨_, _, _, one_positive, rfl, rfl⟩, ?_⟩
  generalize one = n
  rw [mul_pow, sq (Number.sign _), Number.sign_mul_self, one_mul, Nat.cast_mul, Nat.cast_natAbs,
    Int.cast_abs, div_div, mul_div_mul_right _ _ unit, div_pow, sq_abs, div_pow]

theorem sin_ofSmall_zero : (ofSmall 0).1 = 0 := by
  unfold ofSmall
  dsimp only
  rw [zero_mul, Int.zero_ediv]

theorem sin_zero : (point 0).1 = 0 := by
  obtain ⟨positive, -⟩ := quarterTurn_bounds
  unfold point
  generalize quarterTurn = q at positive ⊢
  have turns : (2 * 0 + q) / (2 * q) = 0 := Nat.div_eq_of_lt (by omega)
  dsimp only
  rw [turns, Int.natCast_zero, zero_mul, sub_zero]
  exact sin_ofSmall_zero

/-- Sine and cosine of a number are rounded from a point next to the circle. -/
theorem exists_point {x : Number F} (finite : x.isFinite = true) : ∃ p, OnCircle p ∧
    (∃ r : ℚ, x.sin.Rounded r ∧ r ^ 2 = (p.1 / one : ℚ) ^ 2) ∧
      ∃ r : ℚ, x.cos.Rounded r ∧ r ^ 2 = (p.2 / one : ℚ) ^ 2 := by
  cases x with
  | nan => cases finite
  | signed negative code bounded =>
    have small := Nat.ne_of_lt (of_decide_eq_true finite)
    refine ⟨point (scaled code F), onCircle_point _, ?_, ?_⟩
    · by_cases zero : code = 0
      · subst zero
        have still : scaled 0 F = 0 := by
          unfold scaled
          rw [Format.quanta_zero, Nat.zero_mul, Nat.zero_div]
        refine ⟨0, ⟨negative, 0, 1, Nat.one_pos, ?_, by simp⟩, ?_⟩
        · simp only [Number.sin, small, if_true, if_false]
          exact (Number.nearest_zero negative).symm
        · rw [still, sin_zero, Int.cast_zero, zero_div]
      · simp only [Number.sin, small, zero, if_false]
        exact toNumber_rounded _ _
    · simp only [Number.cos, small, if_false]
      exact toNumber_rounded _ _

end Turtle.Circle
