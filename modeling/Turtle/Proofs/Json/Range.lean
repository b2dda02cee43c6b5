import Turtle.Proofs.Json.Middles
import Turtle.Proofs.Json.Spelling

/-! Which numbers can be read in single precision, and what they come to.
A number is refused when a double is too small for it, so one that is too large for a single is read as
infinity for a while. One that is small enough for the doubles is never refused. -/
namespace Turtle.Json

open Format (double single)

/-- A number that is in the range of the doubles with a few units in the last place to spare. If its
exponent is not told apart from greater ones, it is negative, or the number is zero. -/
structure Moderate (n : Written) : Prop where
  small : 2 ^ 51 * n.numeral.magnitude ≤ (2 ^ 51 - 1) * twoTo 1024
  modest : ∀ p ∈ n.power, greatestExponent < Numeral.value p.digits →
    n.numeral.significand = 0 ∨ p.downward = true

/-- A number that rounds to zero, if its exponent is not told apart from greater ones. -/
def Tame (n : Written) : Prop := ∀ p ∈ n.power, greatestExponent < Numeral.value p.digits →
  2 * (n.numeral.magnitude * single.unit) ≤ 1

section Large

variable {n : Written}

theorem Moderate.exponent_le (moderate : Moderate n) (positive : 0 < n.significand) :
    n.exponent ≤ 308 := by
  apply Int.not_lt.mp
  intro large
  have gathered := (gathered_close n).2
  have small := moderate.small
  have limit : (2 * twoTo 1024 : ℚ) < tenTo 309 := by
    have less : 2 * twoTo 1024 < tenTo 309 := by decide +kernel
    exact_mod_cast less
  have power : (tenTo 309 : ℚ) ≤ 10 ^ n.exponent := by
    rw [cast_tenTo, ← zpow_natCast]
    exact zpow_le_zpow_right₀ (by norm_num) (by omega)
  have digits : (1 : ℚ) ≤ n.significand := Nat.one_le_cast.mpr positive
  have product : (1 * tenTo 309 : ℚ) ≤ n.significand * 10 ^ n.exponent := by
    gcongr
  have base : (0 : ℚ) < twoTo 1024 := Nat.cast_pos.mpr (twoTo_pos 1024)
  generalize (n.significand * 10 ^ n.exponent : ℚ) = x at *
  generalize (twoTo 1024 : ℚ) = limit at *
  generalize (tenTo 309 : ℚ) = beyond at *
  linarith

theorem scaled_isFinite (moderate : Moderate n) (positive : 0 < n.significand)
    (within : n.exponent.natAbs ≤ 308) : (scaled n.significand n.exponent).isFinite = true := by
  have proper := Scales.roundedTens_pos within
  have proper' : (0 : ℚ) < (roundedTens n.exponent).2 := Nat.cast_pos.mpr proper
  have close := (unrounded_close n positive within).upper
  have small := moderate.small
  have unit : (0 : ℚ) < double.unit := Nat.cast_pos.mpr double.unit_pos
  have inQuanta := mul_le_mul_of_nonneg_right small unit.le
  have limit : (0 : ℚ) < twoTo 1024 * double.unit :=
    mul_pos (Nat.cast_pos.mpr (twoTo_pos 1024)) unit
  have top : 2 ^ 53 * (double.quanta (double.infinity - 1) : ℚ)
      = (2 ^ 53 - 1) * (twoTo 1024 * double.unit) := by
    have greatest : 2 ^ 53 * double.quanta (double.infinity - 1) + twoTo 1024 * double.unit
        = 2 ^ 53 * (twoTo 1024 * double.unit) := by decide +kernel
    have cast : (2 ^ 53 * (double.quanta (double.infinity - 1)) + twoTo 1024 * double.unit : ℚ)
        = 2 ^ 53 * (twoTo 1024 * double.unit) := by exact_mod_cast greatest
    linarith
  have below : unrounded n.significand n.exponent ≤ double.quanta (double.infinity - 1) := by
    generalize (double.quanta (double.infinity - 1) : ℚ) = greatest at *
    generalize unrounded n.significand n.exponent = y at *
    linarith
  apply decide_eq_true
  calc double.nearest _ _ ≤ double.nearest (double.quanta (double.infinity - 1)) 1 := by
        apply Format.nearest_le_nearest (by decide) proper Nat.one_pos
        rw [unrounded, div_le_iff₀ proper', ← Nat.cast_mul, ← Nat.cast_mul] at below
        rw [Nat.mul_one]
        exact Nat.cast_le.mp below
    _ = double.infinity - 1 := Format.nearest_quanta_one (by decide) (Nat.sub_le _ _)
    _ < double.infinity := by decide

end Large

/-- A code of doubles so small that no single but zero is near them. -/
def tiny : Nat := 128 * double.binade

theorem tiny_lt_infinity : tiny < double.infinity := by decide

def Tiny (x : Double) : Prop := ∃ code bounded, x = .signed false code bounded ∧ code ≤ tiny

section Small

variable {x : Double} {significand times n : Nat} {exponent : Int}

theorem unit_le_power (n : Nat) : double.unit ≤ double.quanta (roundedTen n) := by
  have one : double.quanta (roundedTen 0) = double.unit := by decide +kernel
  rw [← one]
  exact Format.quanta_le (Scales.roundedTen_le (Nat.zero_le n))

theorem Tiny.div (small : Tiny x) {n : Nat} (within : n ≤ greatestPower) :
    Tiny (x / powerOfTen n) := by
  obtain ⟨code, bounded, rfl, below⟩ := small
  have finite := Nat.lt_of_le_of_lt below tiny_lt_infinity
  have power := unit_le_power n
  rw [div_powerOfTen finite within]
  refine ⟨_, double.nearest_le _ _, rfl, ?_⟩
  calc double.nearest (double.quanta code * double.unit) (double.quanta (roundedTen n))
      ≤ double.nearest (double.quanta code * double.unit) double.unit :=
        Format.nearest_le_nearest (by decide) (Nat.lt_of_lt_of_le double.unit_pos power)
          double.unit_pos (Nat.mul_le_mul_left _ power)
    _ = code := Format.nearest_quanta (by decide) double.unit_pos bounded
    _ ≤ tiny := below

theorem Tiny.divideOut (small : Tiny x) : Tiny (divideOut times x) := by
  induction times generalizing x with
  | zero => exact small
  | succ times ih =>
    unfold Json.divideOut
    split_ifs
    · exact small
    · exact ih (small.div (Nat.le_refl _))

theorem Tiny.convert (small : Tiny x) : (x.convert : Single) = .zero false := by
  obtain ⟨code, bounded, rfl, below⟩ := small
  have finite := Nat.ne_of_lt (Nat.lt_of_le_of_lt below tiny_lt_infinity)
  have none : single.nearest (double.quanta code * single.unit) double.unit = 0 := by
    have limit : single.nearest (double.quanta tiny * single.unit) double.unit = 0 := by decide +kernel
    apply Nat.eq_zero_of_le_zero
    rw [← limit]
    apply Format.nearest_le_nearest (by decide) double.unit_pos double.unit_pos
    exact Nat.mul_le_mul_right _ (Nat.mul_le_mul_right _ (Format.quanta_le below))
  simp only [Number.convert, if_neg finite, Number.nearest, none, Number.zero]

theorem tiny_div (positive : 0 < significand) (fits : significand < twoTo 64) :
    Tiny (.ofNat significand / powerOfTen greatestPower) := by
  have limit : double.nearest (double.quanta (double.nearest (twoTo 64 * double.unit) 1) * double.unit)
      (double.quanta (roundedTen greatestPower)) ≤ tiny := by decide +kernel
  have power := Nat.lt_of_lt_of_le double.unit_pos (unit_le_power greatestPower)
  refine ⟨_, double.nearest_le _ _, div_powerOfTen (rounded_bounds positive fits).2 (Nat.le_refl _),
    ?_⟩
  refine Nat.le_trans ?_ limit
  apply Format.nearest_le_nearest (by decide) power power
  gcongr
  apply Format.quanta_le
  apply Format.nearest_le_nearest (by decide) Nat.one_pos Nat.one_pos
  gcongr

theorem scale?_far (positive : 0 < significand) (fits : significand < twoTo 64)
    (far : exponent < -308) : ∃ x, scale? significand exponent = some x ∧ Tiny x := by
  have limit : greatestPower = 308 := rfl
  have proper : significand ≠ 0 := Nat.ne_of_gt positive
  have down : ¬ 0 ≤ exponent := by omega
  have some : 0 < (exponent.natAbs - 1) / greatestPower := Nat.div_pos (by omega) (by omega)
  obtain ⟨times, count⟩ := Nat.exists_eq_succ_of_ne_zero (Nat.ne_of_gt some)
  have left : exponent.natAbs - (times + 1) * greatestPower ≤ greatestPower := by
    rw [limit] at count ⊢
    omega
  have reduced : Tiny (Json.divideOut times _) := (tiny_div positive fits).divideOut
  simp only [scale?, if_neg proper, if_neg down, count, Nat.succ_eq_add_one, divideOut,
    ofNat_isZero positive fits, Bool.false_eq_true, if_false]
  split_ifs
  · exact ⟨_, rfl, reduced⟩
  · exact ⟨_, rfl, reduced.div left⟩

theorem decimal_eq_zero {d : Nat} (far : 2 * (d * 10 ^ exponent * single.unit : ℚ) ≤ 1) :
    single.decimal d exponent = 0 := by
  have proper := (tens_pos exponent).2
  have proper' : (0 : ℚ) < (tens exponent).2 := Nat.cast_pos.mpr proper
  have half : single.nearest 1 2 = 0 := by decide +kernel
  apply Nat.eq_zero_of_le_zero
  rw [← half]
  apply Format.nearest_le_nearest (by decide) proper (by decide)
  rw [← tens_div, mul_div_assoc', div_mul_eq_mul_div, mul_div_assoc', div_le_one₀ proper'] at far
  rw [Nat.one_mul, Nat.mul_comm _ 2]
  exact_mod_cast far

end Small

section Values

variable {n : Written}

theorem nearly_zero {m : Numeral} (none : single.decimal m.significand m.exponent = 0) :
    Nearly m 0 := ⟨Nat.zero_le _, by omega, fun _ => none.symm⟩

theorem nearly_zero_of_nothing (nothing : n.significand = 0) : Nearly n.numeral 0 := by
  have gathered := (gathered_close n).1
  rw [nothing, Numeral.magnitude] at gathered
  apply nearly_zero
  apply decimal_eq_zero
  have unit : (0 : ℚ) ≤ single.unit := Nat.cast_nonneg _
  have scaled := mul_le_mul_of_nonneg_right gathered unit
  simp only [Nat.cast_zero, zero_mul, mul_zero] at scaled
  linarith

theorem nearly_zero_of_far (far : n.exponent < -308) : Nearly n.numeral 0 := by
  have gathered := (gathered_close n).1
  rw [Numeral.magnitude] at gathered
  apply nearly_zero
  apply decimal_eq_zero
  have digits : (n.significand : ℚ) ≤ twoTo 64 := Nat.cast_le.mpr (Nat.le_of_lt (significand_lt n))
  have beyond : (0 : ℚ) < tenTo 309 := Nat.cast_pos.mpr (tenTo_pos 309)
  have power : (10 : ℚ) ^ n.exponent ≤ (tenTo 309 : ℚ)⁻¹ := by
    rw [cast_tenTo, ← zpow_natCast, ← zpow_neg]
    exact zpow_le_zpow_right₀ (by norm_num) (by omega)
  have limit : (8 * (twoTo 64 * single.unit) : ℚ) ≤ tenTo 309 := by
    have less : 8 * (twoTo 64 * single.unit) ≤ tenTo 309 := by decide +kernel
    exact_mod_cast less
  have product : (n.significand * 10 ^ n.exponent * single.unit : ℚ)
      ≤ twoTo 64 * (tenTo 309 : ℚ)⁻¹ * single.unit := by
    have positive : (0 : ℚ) ≤ 10 ^ n.exponent := zpow_nonneg (by norm_num) _
    gcongr
  have least : 8 * (twoTo 64 * (tenTo 309 : ℚ)⁻¹ * single.unit : ℚ) ≤ 1 := by
    calc 8 * (twoTo 64 * (tenTo 309 : ℚ)⁻¹ * single.unit : ℚ)
        = 8 * (twoTo 64 * single.unit) / tenTo 309 := by ring
      _ ≤ 1 := (div_le_one₀ beyond).mpr limit
  have scaled := mul_le_mul_of_nonneg_right gathered (Nat.cast_nonneg single.unit)
  generalize (n.significand * 10 ^ n.exponent : ℚ) = x at *
  generalize (n.numeral.significand * 10 ^ n.numeral.exponent : ℚ) = q at *
  generalize (twoTo 64 * (tenTo 309 : ℚ)⁻¹ * single.unit : ℚ) = r at *
  linarith

theorem Moderate.scale? (moderate : Moderate n) : ∃ x code bounded,
    scale? n.significand n.exponent = some x ∧ (x.convert : Single) = .signed false code bounded ∧
      Nearly n.numeral code := by
  have fits := significand_lt n
  rcases Nat.eq_zero_or_pos n.significand with nothing | positive
  · refine ⟨.zero false, 0, Nat.zero_le _, ?_, by decide +kernel, nearly_zero_of_nothing nothing⟩
    rw [nothing, scale?_zero]
  · have high := moderate.exponent_le positive
    by_cases far : n.exponent < -308
    · obtain ⟨x, found, small⟩ := scale?_far positive fits far
      exact ⟨x, 0, Nat.zero_le _, found, small.convert, nearly_zero_of_far far⟩
    · have within : n.exponent.natAbs ≤ 308 := by omega
      have found : Json.scale? n.significand n.exponent = some (scaled n.significand n.exponent) := by
        by_cases up : 0 ≤ n.exponent
        · obtain ⟨exponent, same⟩ := Int.eq_ofNat_of_zero_le up
          have finite := scaled_isFinite moderate positive within
          rw [same] at finite within ⊢
          rw [scale?_up positive fits (by simpa using within : exponent ≤ 308), if_pos finite]
        · exact scale?_down positive fits (Int.not_le.mp up) within
      have close := unrounded_close n positive within
      rw [unrounded, ← Nat.cast_mul] at close
      exact ⟨_, _, _, found, convert_nearest _ _, close.nearly (Scales.roundedTens_pos within)⟩

theorem significand_eq_zero (nothing : n.numeral.significand = 0) : n.significand = 0 := by
  have gathered := (gathered_close n).2
  simp only [Numeral.magnitude, nothing, Nat.cast_zero, zero_mul, mul_zero] at gathered
  apply Nat.eq_zero_of_not_pos
  intro positive
  have product : (0 : ℚ) < n.significand * 10 ^ n.exponent :=
    mul_pos (Nat.cast_pos.mpr positive) (zpow_pos (by norm_num) _)
  linarith

/-- A whole number that is held in a word, without rounding. -/
structure IsWord (n : Written) : Prop where
  whole : n.isInteger = true
  low : n.negative = true → n.significand ≤ twoTo 63

theorem numeral_of_whole (whole : n.isInteger = true) :
    n.numeral.significand = n.significand ∧ n.numeral.exponent = 0 := by
  simp only [Written.isInteger, Bool.and_eq_true, Option.isNone_iff_eq_none,
    List.isEmpty_iff] at whole
  obtain ⟨⟨unscaled, whole⟩, fits⟩ := whole
  obtain ⟨taken, split, sum, -, -⟩ := gather_spec 0 n.numeric
  rw [fits, List.append_nil] at split
  rw [← split] at sum
  simp [Written.numeral, Written.significand, whole, unscaled, gather, sum, Numeral.value]

theorem decimal_zero (d : Nat) : single.decimal d 0 = single.nearest (d * single.unit) 1 := by
  simp [Format.decimal, tens, tenTo]

theorem single?_of_whole (whole : n.isInteger = true) : ∃ code bounded,
    n.single? = some (.signed n.negative code bounded) ∧ Nearly n.numeral code ∧
      (IsWord n → code = single.decimal n.numeral.significand n.numeral.exponent) := by
  obtain ⟨significand, exponent⟩ := numeral_of_whole whole
  have parts := whole
  simp only [Written.isInteger, Bool.and_eq_true, Option.isNone_iff_eq_none] at parts
  have exact : Nearly n.numeral (single.nearest (n.significand * single.unit) 1) := by
    rw [← decimal_zero, ← significand, ← exponent]
    exact ⟨Nat.le_succ _, Nat.le_succ _, fun _ => rfl⟩
  have twice : Nearly n.numeral (Format.through (n.significand * double.unit) 1) := by
    apply Close.nearly _ Nat.one_pos
    have nonneg : (0 : ℚ) ≤ n.significand * double.unit :=
      mul_nonneg (Nat.cast_nonneg _) (Nat.cast_nonneg _)
    rw [Numeral.magnitude, significand, exponent, zpow_zero, mul_one, Nat.cast_one, div_one,
      Nat.cast_mul]
    constructor <;> linarith
  unfold Written.single? Written.literal?
  simp only [parts.1.1, whole, not_true_eq_false, if_false]
  split_ifs with positive rounded
  · have sign : n.negative = false := by simpa using positive
    refine ⟨_, single.nearest_le _ _, ?_, exact, fun _ => ?_⟩
    · simp [Literal.single, Number.ofInt, Number.ofRatio, Number.nearest, sign]
    · rw [significand, exponent, decimal_zero]
  · have sign : n.negative = true := by simpa using positive
    refine ⟨_, Format.through_le _ _, ?_, twice, fun word => ?_⟩
    · simp only [Option.map_some, Literal.single, convert_signed, if_true]
      rw [Number.ofNat, Number.ofRatio, convert_nearest, sign]
      rfl
    · have nothing := rounded.resolve_right (Nat.not_lt_of_le (word.low sign))
      rw [significand, exponent, nothing]
      decide +kernel
  · have sign : n.negative = true := by simpa using positive
    have some : 0 < n.significand := by omega
    refine ⟨_, single.nearest_le _ _, ?_, exact, fun _ => ?_⟩
    · simp [Literal.single, Number.ofInt, Number.ofRatio, Number.nearest, sign, some]
    · rw [significand, exponent, decimal_zero]

/-- A number that is not too large has a single, which is the nearest one or next to it. -/
theorem Moderate.single? (moderate : Moderate n) : ∃ code bounded,
    n.single? = some (.signed n.negative code bounded) ∧ (Tame n → Nearly n.numeral code) ∧
      (IsWord n → code = single.decimal n.numeral.significand n.numeral.exponent) := by
  cases whole : n.isInteger with
  | true =>
    obtain ⟨code, bounded, found, nearly, exact⟩ := single?_of_whole whole
    exact ⟨code, bounded, found, fun _ => nearly, exact⟩
  | false =>
    have broken : ¬IsWord n := fun word => by simp [word.whole] at whole
    by_cases modest : ∀ p ∈ n.power, Numeral.value p.digits ≤ greatestExponent
    · obtain ⟨x, code, bounded, found, value, nearly⟩ := moderate.scale?
      have real : n.IsReal := ⟨whole, modest⟩
      refine ⟨code, bounded, ?_, fun _ => nearly, fun word => absurd word broken⟩
      rw [Written.single?, real.literal?, found]
      simp only [Option.map_some, Literal.single, convert_signed, value]
      cases n.negative <;> rfl
    · -- the reader does not scale by such an exponent, and makes a zero of any digits
      push Not at modest
      obtain ⟨p, power, beyond⟩ := modest
      have gone := (moderate.modest p power beyond).imp_left significand_eq_zero
      refine ⟨0, Nat.zero_le _, ?_, fun tame => ?_, fun word => absurd word broken⟩
      · rw [Written.single?, Written.literal?, power]
        simp only [Power.literal?, if_neg (Nat.not_le_of_lt beyond), if_pos gone]
        cases n.negative <;> decide +kernel
      · apply nearly_zero
        apply decimal_eq_zero
        exact tame p power beyond

end Values

end Turtle.Json
