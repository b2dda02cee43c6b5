import Turtle.Proofs.Decimal.Fewest
import Turtle.Proofs.Json.Accuracy

/-! Where rounding a number twice goes wrong.
The double that is read is close to the number, so it is on the same side of a middle between two
singles unless the number is very close to that middle. Two middles are too far apart for a number to be
close to both, so the single that comes of the double is the nearest one or next to it. -/
namespace Turtle

open Format (double single)

namespace Format

/-- The middle between a single and the next one. -/
def halfway (code : Nat) : ℚ := middle code / (2 * single.unit)

end Format

open Format (halfway)

/-- Within about four units in the last place of a double of a middle between two singles. -/
def Borders (q : ℚ) : Prop := ∃ code < single.infinity, |q - halfway code| ≤ halfway code / 2 ^ 51

/-- Not as close to a middle as that. -/
def Apart (q : ℚ) (code : Nat) : Prop :=
  (2 ^ 51 + 1) * halfway code < 2 ^ 51 * q ∨ 2 ^ 51 * q < (2 ^ 51 - 1) * halfway code

variable {q : ℚ} {code : Nat}

theorem apart_of_not_borders (plain : ¬Borders q) (finite : code < single.infinity) :
    Apart q code := by
  by_contra near
  unfold Apart at near
  rw [not_or, not_lt, not_lt] at near
  refine plain ⟨code, finite, abs_le.mpr ⟨?_, ?_⟩⟩
  · linarith
  · linarith

theorem halfway_pos (code : Nat) : 0 < halfway code := by
  have above : 0 < Format.middle code :=
    Nat.add_pos_right _ (Nat.zero_lt_of_lt (Format.quanta_lt (Nat.lt_add_one code)))
  exact div_pos (Nat.cast_pos.mpr above) (mul_pos two_pos (Nat.cast_pos.mpr single.unit_pos))

theorem middle_mul (code : Nat) :
    (Format.middle code * twoTo 924 : ℚ) = halfway code * double.unit := by
  have scale : double.unit = twoTo 924 * (2 * single.unit) := by decide +kernel
  have proper : (single.unit : ℚ) ≠ 0 := Nat.cast_ne_zero.mpr (Nat.ne_of_gt single.unit_pos)
  rw [scale, halfway]
  push_cast
  generalize (twoTo 924 : ℚ) = power
  field_simp

theorem halfway_succ (code : Nat) :
    (2 ^ 25 + 1) * halfway code < 2 ^ 25 * halfway (code + 1) := by
  have narrow := Format.quanta_lt_gap (F := single) code
  have size : single.binade = 8388608 := by decide
  have first := Format.quanta_add_gap (F := single) code
  have second := Format.quanta_add_gap (F := single) (code + 1)
  have wider : single.gap (code + 1) ≤ single.gap (code + 1 + 1) := Format.gap_le (Nat.le_succ _)
  have step : (2 ^ 25 + 1) * Format.middle code < 2 ^ 25 * Format.middle (code + 1) := by
    rw [size] at narrow
    simp only [Format.middle]
    omega
  have positive : (0 : ℚ) < 2 * single.unit :=
    mul_pos two_pos (Nat.cast_pos.mpr single.unit_pos)
  rw [halfway, halfway, mul_div_assoc', mul_div_assoc']
  apply div_lt_div_of_pos_right _ positive
  exact_mod_cast step

theorem apart_succ (near : ¬Apart q code) : 2 ^ 51 * q < (2 ^ 51 - 1) * halfway (code + 1) := by
  have next := halfway_succ code
  have positive := halfway_pos code
  unfold Apart at near
  rw [not_or, not_lt, not_lt] at near
  linarith

namespace Json

section Quotients

variable {num den whole part : Nat}

theorem Close.clear (close : Close (num / den) (whole / part)) (positive : 0 < den) (proper : 0 < part)
    (value : (whole / part : ℚ) = q * double.unit) (apart : Apart q code) :
    Format.Clear num den whole part code := by
  obtain ⟨upper, lower⟩ := close
  have unit : (0 : ℚ) < double.unit := Nat.cast_pos.mpr double.unit_pos
  have center := middle_mul code
  have above : (0 : ℚ) < halfway code * double.unit := mul_pos (halfway_pos code) unit
  have apart : (2 ^ 51 + 1) * (halfway code * double.unit) < 2 ^ 51 * (whole / part : ℚ) ∨
      2 ^ 51 * (whole / part : ℚ) < (2 ^ 51 - 1) * (halfway code * double.unit) := by
    simp only [value, ← mul_assoc]
    exact apart.imp (fun far => mul_lt_mul_of_pos_right far unit)
      fun far => mul_lt_mul_of_pos_right far unit
  have den' : (0 : ℚ) < den := Nat.cast_pos.mpr positive
  have part' : (0 : ℚ) < part := Nat.cast_pos.mpr proper
  have size : 2 * double.binade = 2 ^ 53 := precision_eq
  rw [← center] at above apart
  clear center
  constructor
  all_goals
    generalize twoTo 924 = power at *
    intro order
  · rw [size]
    have less : (Format.middle code * power : ℚ) < whole / part := by
      rw [lt_div_iff₀ part']
      exact_mod_cast order
    have kept : (2 ^ 53 + 1) * (Format.middle code * power : ℚ) < 2 ^ 53 * (num / den) := by
      rcases apart with far | far <;> linarith
    rw [mul_div_assoc', lt_div_iff₀ den', mul_assoc] at kept
    exact_mod_cast kept
  · rw [size]
    have more : (whole / part : ℚ) < Format.middle code * power := by
      rw [div_lt_iff₀ part']
      exact_mod_cast order
    have kept : 2 ^ 53 * (num / den) + Format.middle code * power
        < 2 ^ 53 * (Format.middle code * power : ℚ) := by
      rcases apart with far | far <;> linarith
    have scaled := mul_lt_mul_of_pos_right kept den'
    rw [add_mul, mul_assoc, div_mul_cancel₀ _ (ne_of_gt den'), mul_assoc (2 ^ 53)] at scaled
    exact_mod_cast scaled
  · have same : (whole / part : ℚ) = Format.middle code * power := by
      rw [div_eq_iff (ne_of_gt part')]
      exact_mod_cast order
    rcases apart with far | far <;> linarith

end Quotients

/-- A code that is nearest to a numeral or next to the nearest one, and the nearest one unless the
numeral is very close to a middle. -/
structure Nearly (m : Numeral) (code : Nat) : Prop where
  below : code ≤ single.decimal m.significand m.exponent + 1
  above : single.decimal m.significand m.exponent ≤ code + 1
  exact : ¬Borders m.magnitude → code = single.decimal m.significand m.exponent

section Codes

variable {num den : Nat} {m : Numeral}

/-- Two roundings of a quotient go the way of the numeral it is close to. -/
theorem Close.lt_through_iff (close : Close (num / den) (m.magnitude * double.unit))
    (positive : 0 < den) (finite : code < single.infinity) (apart : Apart m.magnitude code) :
    code < Format.through num den ↔ code < single.decimal m.significand m.exponent := by
  have proper := (tens_pos m.exponent).2
  have value : ((m.significand * (tens m.exponent).1 * double.unit : Nat) / (tens m.exponent).2 : ℚ)
      = m.magnitude * double.unit := by
    rw [Numeral.magnitude, ← tens_div]
    push_cast
    ring
  rw [← Scales.nearest_in_doubles]
  apply Format.lt_through_iff_of_clear positive proper finite
  rw [← value] at close
  exact close.clear positive proper value apart

theorem Close.nearly (close : Close (num / den) (m.magnitude * double.unit)) (positive : 0 < den) :
    Nearly m (Format.through num den) := by
  have reached := Format.through_le num den
  have reached' : single.decimal m.significand m.exponent ≤ single.infinity := single.nearest_le _ _
  -- of two middles in a row, the numeral is close to no more than one
  have settled {code : Nat} (finite : code + 1 < single.infinity) :
      (code < Format.through num den ↔ code < single.decimal m.significand m.exponent) ∨
        (code + 1 < Format.through num den ↔ code + 1 < single.decimal m.significand m.exponent) := by
    by_cases apart : Apart m.magnitude code
    · exact .inl (close.lt_through_iff positive (Nat.lt_of_succ_lt finite) apart)
    · exact .inr (close.lt_through_iff positive finite (.inr (apart_succ apart)))
  constructor
  · apply Nat.le_of_not_lt
    intro far
    rcases settled (Nat.lt_of_lt_of_le far reached) with first | second <;> omega
  · apply Nat.le_of_not_lt
    intro far
    rcases settled (Nat.lt_of_lt_of_le far reached') with first | second <;> omega
  · intro plain
    exact Format.eq_of_lt_iff reached reached' fun code finite =>
      close.lt_through_iff positive finite (apart_of_not_borders plain finite)

end Codes

end Json
end Turtle
