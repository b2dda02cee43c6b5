import Turtle.Proofs.Json.Scaling
import Mathlib.Algebra.Order.Field.Rat
import Mathlib.Tactic.FieldSimp
import Mathlib.Tactic.Positivity

/-! How far the reader of numbers is off.
The digits that do not fit a word are dropped, and what is left is scaled with two or three roundings.
All in all the double is within a few units in the last place of the rational that is written. -/
namespace Turtle

/-- A power of ten as a rational. -/
theorem tens_div (exponent : Int) :
    ((tens exponent).1 : ℚ) / (tens exponent).2 = 10 ^ exponent := by
  obtain ⟨n, rfl | rfl⟩ := exponent.eq_nat_or_neg <;> simp [tens, tenTo]

/-- The rational a numeral stands for, without its sign. -/
def Numeral.magnitude (m : Numeral) : ℚ := m.significand * 10 ^ m.exponent

namespace Json

variable {high : Nat} {digits : List Char}

theorem digitValue_le {c : Char} (digit : c.isDigit = true) : Numeral.digitValue c ≤ 9 := by
  simp only [Char.isDigit, Bool.and_eq_true, decide_eq_true_eq] at digit
  have above : c.toNat ≤ 57 := digit.2
  have zero : '0'.toNat = 48 := rfl
  simp only [Numeral.digitValue, zero]
  omega

/-- Gathering takes digits from the front, and stops before one that does not fit. -/
theorem gather_spec (high : Nat) (numeric : digits.all Char.isDigit) :
    ∃ taken, digits = taken ++ (gather high digits).2 ∧
      (gather high digits).1 = Numeral.valueFrom high taken ∧
      ((gather high digits).2 ≠ [] → twoTo 64 ≤ 10 * (gather high digits).1 + 9) ∧
      (high < twoTo 64 → (gather high digits).1 < twoTo 64) := by
  induction digits generalizing high with
  | nil => exact ⟨[], rfl, rfl, nofun, id⟩
  | cons c digits ih =>
    simp only [List.all_cons, Bool.and_eq_true] at numeric
    have small := digitValue_le numeric.1
    unfold gather
    dsimp only
    split_ifs with fits
    · obtain ⟨taken, rest, sum, full, bounded⟩ := ih (10 * high + Numeral.digitValue c) numeric.2
      refine ⟨c :: taken, ?_, ?_, full, fun _ => bounded fits⟩
      · rw [List.cons_append, ← rest]
      · rw [Numeral.valueFrom_cons, sum]
    · exact ⟨[], rfl, rfl, fun _ => by dsimp only; omega, id⟩

theorem valueFrom_lt (numeric : digits.all Char.isDigit) :
    Numeral.valueFrom high digits < (high + 1) * tenTo digits.length := by
  induction digits generalizing high with
  | nil => simp [tenTo]
  | cons c digits ih =>
    simp only [List.all_cons, Bool.and_eq_true] at numeric
    have digit := digitValue_le numeric.1
    rw [Numeral.valueFrom_cons, List.length_cons, tenTo_succ]
    calc Numeral.valueFrom (10 * high + Numeral.digitValue c) digits
        < (10 * high + Numeral.digitValue c + 1) * tenTo digits.length := ih numeric.2
      _ ≤ (10 * (high + 1)) * tenTo digits.length := Nat.mul_le_mul_right _ (by omega)
      _ = (high + 1) * (10 * tenTo digits.length) := by ring

theorem le_valueFrom_mul : high * tenTo digits.length ≤ Numeral.valueFrom high digits := by
  rw [Numeral.valueFrom_eq]
  exact Nat.le_add_right _ _

/-- Two numbers in an interval that is short for where it lies. -/
theorem close_of_mem {a b : ℚ} (low width : ℚ) (first : low ≤ a) (first' : a ≤ low + width)
    (second : low ≤ b) (second' : b ≤ low + width) (short : 2 ^ 60 * width ≤ low) :
    2 ^ 60 * a ≤ (2 ^ 60 + 1) * b ∧ 2 ^ 60 * b ≤ (2 ^ 60 + 1) * a := by
  constructor <;> linarith

theorem tenTo_add (m n : Nat) : tenTo (m + n) = tenTo m * tenTo n := Nat.pow_add 10 m n

theorem cast_tenTo (n : Nat) : (tenTo n : ℚ) = 10 ^ n := by simp [tenTo]

/-- The exponent of what is gathered makes up for the digits that are left over. -/
theorem zpow_exponent (n : Written) : (10 : ℚ) ^ n.exponent
    = tenTo ((gather 0 n.whole).2.length + (gather (gather 0 n.whole).1 n.places).2.length)
      * 10 ^ n.numeral.exponent := by
  obtain ⟨taken, places, -⟩ := gather_spec (gather 0 n.whole).1 n.fraction
  have length := congrArg List.length places
  rw [List.length_append] at length
  rw [cast_tenTo, ← zpow_natCast, ← zpow_add₀ (by norm_num)]
  congr 1
  simp only [Written.exponent, Written.shift, Written.numeral]
  omega

/-- Digits gathered from two runs, those left over from either, and a unit for the last place. -/
theorem close_of_gathered {s : Nat} {u taken u' : List Char} (numeric : u.all Char.isDigit)
    (numeric' : taken.all Char.isDigit) (numeric'' : u'.all Char.isDigit)
    (full : u ≠ [] → 2 ^ 60 ≤ s) (full' : u' ≠ [] → 2 ^ 60 ≤ Numeral.valueFrom s taken) {t : ℚ}
    (positive : 0 < t) :
    let exact : ℚ := Numeral.valueFrom (Numeral.valueFrom s u) (taken ++ u') * t
    let gathered : ℚ := Numeral.valueFrom s taken * (tenTo (u.length + u'.length) * t)
    2 ^ 60 * exact ≤ (2 ^ 60 + 1) * gathered ∧ 2 ^ 60 * gathered ≤ (2 ^ 60 + 1) * exact := by
  have unit' : (0 : ℚ) < tenTo u'.length := Nat.cast_pos.mpr (tenTo_pos _)
  cases u with
  | nil =>
    -- all of the whole digits are gathered, so what is dropped comes at the end
    simp only [Numeral.valueFrom_nil, Numeral.valueFrom_append, List.length_nil, Nat.zero_add]
    generalize Numeral.valueFrom s taken = s' at full' ⊢
    have low : (s' * tenTo u'.length : ℚ) ≤ Numeral.valueFrom s' u' := by
      exact_mod_cast le_valueFrom_mul
    have high : (Numeral.valueFrom s' u' : ℚ) ≤ (s' + 1) * tenTo u'.length := by
      exact_mod_cast Nat.le_of_lt (valueFrom_lt numeric'')
    cases u' with
    | nil =>
      have origin : tenTo 0 = 1 := rfl
      have product : (0 : ℚ) ≤ s' * t := by positivity
      simp only [Numeral.valueFrom_nil, List.length_nil, origin, Nat.cast_one, one_mul]
      constructor <;> linarith
    | cons c u' =>
      have many : (2 ^ 60 : ℚ) ≤ s' := by exact_mod_cast full' nofun
      apply close_of_mem (s' * (tenTo (c :: u').length * t)) (tenTo (c :: u').length * t)
      · nlinarith
      · nlinarith
      · exact le_refl _
      · nlinarith
      · gcongr
  | cons c u =>
    -- what is dropped of the whole digits may be followed by places that are not
    have many : (2 ^ 60 : ℚ) ≤ s := by exact_mod_cast full nofun
    have digits : (taken ++ u').all Char.isDigit := by simp_all
    have size : tenTo (taken ++ u').length = tenTo taken.length * tenTo u'.length := by
      rw [List.length_append, tenTo_add]
    have low : (s * tenTo (c :: u).length : ℚ) ≤ Numeral.valueFrom s (c :: u) := by
      exact_mod_cast le_valueFrom_mul
    have high : (Numeral.valueFrom s (c :: u) + 1 : ℚ) ≤ (s + 1) * tenTo (c :: u).length := by
      exact_mod_cast valueFrom_lt numeric
    have low' : (s * tenTo taken.length : ℚ) ≤ Numeral.valueFrom s taken := by
      exact_mod_cast le_valueFrom_mul
    have high' : (Numeral.valueFrom s taken : ℚ) ≤ (s + 1) * tenTo taken.length := by
      exact_mod_cast Nat.le_of_lt (valueFrom_lt numeric')
    generalize Numeral.valueFrom s (c :: u) = w at low high ⊢
    have low'' : (w * (tenTo taken.length * tenTo u'.length) : ℚ)
        ≤ Numeral.valueFrom w (taken ++ u') := by
      rw [← Nat.cast_mul, ← size]
      exact_mod_cast le_valueFrom_mul
    have high'' : (Numeral.valueFrom w (taken ++ u') : ℚ)
        ≤ (w + 1) * (tenTo taken.length * tenTo u'.length) := by
      rw [← Nat.cast_mul, ← size]
      exact_mod_cast Nat.le_of_lt (valueFrom_lt digits)
    have unit : (0 : ℚ) < tenTo (c :: u).length := Nat.cast_pos.mpr (tenTo_pos _)
    have unit'' : (0 : ℚ) < tenTo taken.length := Nat.cast_pos.mpr (tenTo_pos _)
    simp only [tenTo_add, Nat.cast_mul]
    generalize (tenTo (c :: u).length : ℚ) = A at *
    generalize (tenTo taken.length : ℚ) = B at *
    generalize (tenTo u'.length : ℚ) = C at *
    apply close_of_mem (s * (A * B * C * t)) (A * B * C * t)
    · calc (s : ℚ) * (A * B * C * t) = s * A * (B * C) * t := by ring
        _ ≤ w * (B * C) * t := by gcongr
        _ ≤ _ := by gcongr
    · calc (Numeral.valueFrom w (taken ++ u') : ℚ) * t ≤ (w + 1) * (B * C) * t := by gcongr
        _ ≤ (s + 1) * A * (B * C) * t := by gcongr
        _ = _ := by ring
    · calc (s : ℚ) * (A * B * C * t) = s * B * (A * C * t) := by ring
        _ ≤ _ := by gcongr
    · calc (Numeral.valueFrom s taken : ℚ) * (A * C * t) ≤ (s + 1) * B * (A * C * t) := by gcongr
        _ = _ := by ring
    · gcongr

theorem gathered_close (n : Written) :
    2 ^ 60 * n.numeral.magnitude ≤ (2 ^ 60 + 1) * (n.significand * 10 ^ n.exponent) ∧
      2 ^ 60 * (n.significand * (10 : ℚ) ^ n.exponent) ≤ (2 ^ 60 + 1) * n.numeral.magnitude := by
  obtain ⟨taken, whole, sum, full, -⟩ := gather_spec 0 n.numeric
  obtain ⟨taken', places, sum', full', -⟩ := gather_spec (gather 0 n.whole).1 n.fraction
  have numeric := n.numeric
  have fraction := n.fraction
  rw [whole, List.all_append, Bool.and_eq_true] at numeric
  rw [places, List.all_append, Bool.and_eq_true] at fraction
  have value : n.numeral.significand = Numeral.valueFrom (Numeral.valueFrom (gather 0 n.whole).1
      (gather 0 n.whole).2) (taken' ++ (gather (gather 0 n.whole).1 n.places).2) := by
    have first := (congrArg (Numeral.valueFrom 0) whole).trans Numeral.valueFrom_append
    rw [← sum] at first
    rw [← places, ← first]
    rfl
  have positive : (0 : ℚ) < 10 ^ n.numeral.exponent := zpow_pos (by norm_num) _
  have word : twoTo 64 = 18446744073709551616 := by decide +kernel
  have reached : n.significand = Numeral.valueFrom (gather 0 n.whole).1 taken' := sum'
  rw [zpow_exponent, Numeral.magnitude, value, reached]
  rw [sum'] at full'
  apply close_of_gathered numeric.2 fraction.1 fraction.2 _ _ positive
  · intro some
    have := full some
    omega
  · intro some
    have := full' some
    omega

theorem significand_lt (n : Written) : n.significand < twoTo 64 := by
  obtain ⟨-, -, -, -, first⟩ := gather_spec 0 n.numeric
  obtain ⟨-, -, -, -, second⟩ := gather_spec (gather 0 n.whole).1 n.fraction
  exact second (first (twoTo_pos 64))

open Format (double single)

/-- Two rationals that differ by no more than two and a half units in the last place of a double. -/
structure Close (y q : ℚ) : Prop where
  upper : 2 * 2 ^ 53 * y ≤ (2 * 2 ^ 53 + 5) * q
  lower : 2 * 2 ^ 53 * q ≤ (2 * 2 ^ 53 + 5) * y

theorem precision_eq : Scales.precision = 2 ^ 53 := by decide +kernel

theorem rounded_close {significand : Nat} (positive : 0 < significand)
    (fits : significand < twoTo 64) :
    let x : ℚ := double.quanta (double.nearest (significand * double.unit) 1)
    (2 ^ 53 - 1) * x ≤ 2 ^ 53 * (significand * double.unit) ∧
      (2 ^ 53 - 1) * (significand * double.unit : ℚ) ≤ 2 ^ 53 * x := by
  obtain ⟨normal, finite⟩ := rounded_bounds positive fits
  have within := Format.nearest_within (by decide) Nat.one_pos normal finite
  have size : 2 * double.binade = 2 ^ 53 := precision_eq
  rw [size, Nat.mul_one] at within
  generalize double.quanta (double.nearest (significand * double.unit) 1) = x at within ⊢
  have below : (2 ^ 53 * (significand * double.unit) : ℚ) ≤ (2 ^ 53 + 1) * x := by
    exact_mod_cast within.1
  have above : (2 ^ 53 * x : ℚ) ≤ 2 ^ 53 * (significand * double.unit) + x := by
    exact_mod_cast within.2
  constructor <;> linarith

theorem power_close {exponent : Int} (small : exponent.natAbs ≤ 308) :
    let p : ℚ := (roundedTens exponent).1 / (roundedTens exponent).2
    (2 ^ 53 - 1) * p ≤ 2 ^ 53 * 10 ^ exponent ∧ (2 ^ 53 - 1) * (10 : ℚ) ^ exponent ≤ 2 ^ 53 * p := by
  obtain ⟨⟨proper, proper'⟩, lower, upper⟩ := Scales.faithful_ofTens small 0
  rw [← tens_div]
  have unit : twoTo 0 = 1 := rfl
  simp only [Scales.ofTens, precision_eq, unit, Nat.mul_one] at proper proper' lower upper
  generalize tens exponent = t at *
  generalize roundedTens exponent = r at *
  have wide : (0 : ℚ) < twoTo 150 := Nat.cast_pos.mpr (twoTo_pos 150)
  have part : (0 : ℚ) < t.2 := Nat.cast_pos.mpr proper
  have part' : (0 : ℚ) < r.2 := Nat.cast_pos.mpr proper'
  have below : (2 ^ 53 * (t.1 * twoTo 150 * r.2) : ℚ)
      ≤ 2 ^ 53 * (r.1 * twoTo 150 * t.2) + t.1 * twoTo 150 * r.2 := by exact_mod_cast lower
  have above : (2 ^ 53 * (r.1 * twoTo 150 * t.2) : ℚ)
      ≤ 2 ^ 53 * (t.1 * twoTo 150 * r.2) + r.1 * twoTo 150 * t.2 := by exact_mod_cast upper
  constructor
  · rw [mul_div_assoc', mul_div_assoc', div_le_div_iff₀ part' part]
    apply le_of_mul_le_mul_right _ wide
    linarith
  · rw [mul_div_assoc', mul_div_assoc', div_le_div_iff₀ part part']
    apply le_of_mul_le_mul_right _ wide
    linarith

/-- What the reader computes, before the last rounding, in quanta. -/
def unrounded (significand : Nat) (exponent : Int) : ℚ :=
  double.quanta (double.nearest (significand * double.unit) 1) * (roundedTens exponent).1
    / (roundedTens exponent).2

theorem unrounded_close (n : Written) (positive : 0 < n.significand)
    (small : n.exponent.natAbs ≤ 308) :
    Close (unrounded n.significand n.exponent) (n.numeral.magnitude * double.unit) := by
  obtain ⟨below, above⟩ := rounded_close positive (significand_lt n)
  obtain ⟨below', above'⟩ := power_close small
  obtain ⟨gathered, gathered'⟩ := gathered_close n
  have unit : (0 : ℚ) < double.unit := Nat.cast_pos.mpr double.unit_pos
  have scale : (0 : ℚ) < 10 ^ n.exponent := zpow_pos (by norm_num) _
  have nonneg : (0 : ℚ) ≤ (roundedTens n.exponent).1 / (roundedTens n.exponent).2 :=
    div_nonneg (Nat.cast_nonneg _) (Nat.cast_nonneg _)
  have digits : (0 : ℚ) ≤ n.significand := Nat.cast_nonneg _
  have quanta : (0 : ℚ) ≤ double.quanta (double.nearest (n.significand * double.unit) 1) :=
    Nat.cast_nonneg _
  rw [unrounded, mul_div_assoc]
  generalize ((roundedTens n.exponent).1 : ℚ) / (roundedTens n.exponent).2 = p at *
  generalize (double.quanta (double.nearest (n.significand * double.unit) 1) : ℚ) = x at *
  generalize (10 : ℚ) ^ n.exponent = t at *
  generalize (double.unit : ℚ) = U at *
  generalize n.numeral.magnitude = q at *
  generalize (n.significand : ℚ) = s at *
  have product : (2 ^ 53 - 1) * x * ((2 ^ 53 - 1) * p) ≤ 2 ^ 53 * (s * U) * (2 ^ 53 * t) := by
    gcongr
  have product' : (2 ^ 53 - 1) * (s * U) * ((2 ^ 53 - 1) * t) ≤ 2 ^ 53 * x * (2 ^ 53 * p) := by
    gcongr
  have gathered := mul_le_mul_of_nonneg_right gathered unit.le
  have gathered' := mul_le_mul_of_nonneg_right gathered' unit.le
  constructor
  · linarith
  · linarith

end Json
end Turtle
