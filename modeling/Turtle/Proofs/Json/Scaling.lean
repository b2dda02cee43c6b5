import Turtle.Proofs.Decimal.FewDigits
import Turtle.Proofs.Json.Number

/-! What the reader computes from the digits of a number.
It gathers digits as long as they fit a word, and scales what it has gathered by the double nearest to
a power of ten. -/
namespace Turtle

namespace Numeral

variable {high n : Nat} {digits more : List Char}

@[simp] theorem valueFrom_nil : valueFrom high [] = high := rfl

theorem valueFrom_cons (c : Char) :
    valueFrom high (c :: digits) = valueFrom (10 * high + digitValue c) digits := by
  simp only [valueFrom, List.foldl_cons]

theorem valueFrom_append : valueFrom high (digits ++ more) = valueFrom (valueFrom high digits) more :=
  List.foldl_append

theorem valueFrom_eq : valueFrom high digits = high * tenTo digits.length + value digits := by
  induction digits generalizing high with
  | nil => simp [value, tenTo]
  | cons c digits ih =>
    simp only [value, valueFrom_cons, List.length_cons, tenTo_succ] at ih ⊢
    rw [ih, @ih (10 * 0 + digitValue c)]
    ring

theorem le_valueFrom : high ≤ valueFrom high digits := by
  rw [valueFrom_eq]
  exact Nat.le_add_right_of_le (Nat.le_mul_of_pos_right high (tenTo_pos _))

@[simp] theorem valueFrom_toDigits_zero : valueFrom 0 (Nat.toDigits 10 n) = n :=
  Nat.ofDigitChars_ten_toDigits

theorem valueFrom_zeros : valueFrom high (Layout.zeros n) = high * tenTo n := by
  induction n generalizing high with
  | zero => simp [Layout.zeros, tenTo]
  | succ n ih =>
    change valueFrom (10 * high + digitValue '0') (Layout.zeros n) = _
    rw [ih, tenTo_succ, show digitValue '0' = 0 from rfl]
    ring

end Numeral

namespace Json

open Format (double)

theorem gather_of_lt {high : Nat} {digits : List Char}
    (fits : Numeral.valueFrom high digits < twoTo 64) :
    gather high digits = (Numeral.valueFrom high digits, []) := by
  induction digits generalizing high with
  | nil => rfl
  | cons c digits ih =>
    rw [Numeral.valueFrom_cons] at fits ⊢
    have first := Nat.lt_of_le_of_lt Numeral.le_valueFrom fits
    rw [gather, if_pos first]
    exact ih fits

theorem powerOfTen_eq {n : Nat} (small : n ≤ greatestPower) :
    powerOfTen n = .signed false (roundedTen n) (Format.nearest_le _ _ _) := by
  have low : ¬ (400 : Int) < n := by
    have limit : greatestPower = 308 := rfl
    omega
  simp [powerOfTen, Numeral.nearest, low, Number.ofRatio, Number.nearest, roundedTen]

theorem scale?_zero (exponent : Int) : scale? 0 exponent = some (.zero false) := by
  have rounded : (Number.ofNat 0 : Double) = .zero false := by decide +kernel
  simp [scale?, rounded]

/-- What scaling by one power of ten gives, before it is known to be in range. -/
def scaled (significand : Nat) (exponent : Int) : Double :=
  .nearest false
    (double.quanta (double.nearest (significand * double.unit) 1) * (roundedTens exponent).1)
    (roundedTens exponent).2

theorem rounded_bounds {significand : Nat} (positive : 0 < significand)
    (fits : significand < twoTo 64) :
    double.binade < double.nearest (significand * double.unit) 1 ∧
      double.nearest (significand * double.unit) 1 < double.infinity := by
  have ordered {m n : Nat} (below : m ≤ n) :
      double.nearest (m * double.unit) 1 ≤ double.nearest (n * double.unit) 1 :=
    Format.nearest_whole_le_nearest (by decide) below
  have low : double.binade < double.nearest (1 * double.unit) 1 := by decide +kernel
  have high : double.nearest (twoTo 64 * double.unit) 1 < double.infinity := by decide +kernel
  exact ⟨Nat.lt_of_lt_of_le low (ordered positive),
    Nat.lt_of_le_of_lt (ordered (Nat.le_of_lt fits)) high⟩

theorem scale?_up {significand : Nat} (positive : 0 < significand) (fits : significand < twoTo 64)
    {exponent : Nat} (small : exponent ≤ greatestPower) :
    scale? significand exponent =
      if (scaled significand exponent).isFinite then some (scaled significand exponent) else none := by
  have limit : greatestPower = 308 := rfl
  have finite := (rounded_bounds positive fits).2
  have power := (Scales.roundedTen_bounds small).2
  have product : (Number.ofNat significand : Double) * powerOfTen exponent
      = scaled significand exponent := by
    rw [powerOfTen_eq small]
    exact Number.mul_of_finite finite power
  have proper : significand ≠ 0 := Nat.ne_of_gt positive
  have within : (exponent : Int) ≤ greatestPower := Int.ofNat_le.mpr small
  simp only [scale?, if_neg proper, if_pos (Int.natCast_nonneg exponent), if_pos within,
    Int.toNat_natCast, product]

theorem div_powerOfTen {code n : Nat} {bounded : code ≤ double.infinity}
    (finite : code < double.infinity) (small : n ≤ greatestPower) :
    (.signed false code bounded / powerOfTen n : Double)
      = .nearest false (double.quanta code * double.unit) (double.quanta (roundedTen n)) := by
  obtain ⟨normal, finite'⟩ := Scales.roundedTen_bounds small
  rw [powerOfTen_eq small]
  exact Number.div_of_finite finite finite' (Nat.ne_of_gt (Nat.zero_lt_of_lt normal))

theorem ofNat_isZero {significand : Nat} (positive : 0 < significand) (fits : significand < twoTo 64) :
    (Number.ofNat significand : Double).isZero = false :=
  beq_eq_false_iff_ne.mpr (Nat.ne_of_gt (Nat.zero_lt_of_lt (rounded_bounds positive fits).1))

theorem scale?_down {significand : Nat} (positive : 0 < significand) (fits : significand < twoTo 64)
    {exponent : Int} (down : exponent < 0) (small : exponent.natAbs ≤ greatestPower) :
    scale? significand exponent = some (scaled significand exponent) := by
  have limit : greatestPower = 308 := rfl
  have proper : significand ≠ 0 := Nat.ne_of_gt positive
  have none : (exponent.natAbs - 1) / greatestPower = 0 := Nat.div_eq_of_lt (by omega)
  have quotient : (Number.ofNat significand : Double) / powerOfTen exponent.natAbs
      = scaled significand exponent := by
    rw [scaled, roundedTens, if_neg (Int.not_le.mpr down)]
    exact div_powerOfTen (rounded_bounds positive fits).2 small
  simp only [scale?, if_neg proper, if_neg (Int.not_le.mpr down), none, divideOut,
    ofNat_isZero positive fits, Bool.false_eq_true, if_false, Nat.zero_mul, Nat.sub_zero, quotient]

theorem through_of_infinite {num den : Nat} (top : double.nearest num den = double.infinity) :
    Format.through num den = Format.single.infinity := by
  rw [Format.through, top]
  decide +kernel

theorem convert_nearest (num den : Nat) : ((Number.nearest false num den : Double).convert : Single)
    = .signed false (Format.through num den) (Format.through_le num den) := by
  by_cases top : double.nearest num den = double.infinity
  · simp only [Number.nearest, Number.convert, if_pos top, through_of_infinite top]
    rfl
  · simp only [Number.nearest, Number.convert, if_neg top]
    rfl

theorem scaled_convert {significand : Nat} (short : significand ≤ 2 * double.binade) {exponent : Int}
    (finite : Format.detour significand exponent < Format.single.infinity) :
    (scaled significand exponent).isFinite = true ∧
      (scaled significand exponent).convert
        = .signed false (Format.detour significand exponent) (Nat.le_of_lt finite) := by
  have within : scaled significand exponent = .nearest false
      (significand * (roundedTens exponent).1 * double.unit) (roundedTens exponent).2 := by
    rw [scaled, Format.quanta_nearest_of_short short, Nat.mul_right_comm]
  have bounded : double.nearest (significand * (roundedTens exponent).1 * double.unit)
      (roundedTens exponent).2 < double.infinity := by
    apply Nat.lt_of_le_of_ne (double.nearest_le _ _)
    intro top
    rw [Format.detour, through_of_infinite top] at finite
    exact Nat.lt_irrefl _ finite
  rw [within]
  exact ⟨decide_eq_true bounded, convert_nearest _ _⟩

end Json
end Turtle
