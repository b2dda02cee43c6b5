import Mathlib.Algebra.Order.Field.Rat
import Mathlib.Tactic.FieldSimp
import Mathlib.Tactic.Linarith
import Mathlib.Tactic.LinearCombination
import Mathlib.Tactic.Positivity
import Mathlib.Tactic.Ring
import Turtle.Proofs.Number.Bounds

/-! Numbers as rationals.
Rounding a rational gives the finite number nearest to it, and of two that are equally near the even
one, as long as there is a finite number to give. With its sign this number is fixed. -/
namespace Turtle

/-- From beyond the middle of two points, or from the middle itself, the farther one is as near as
any point that is not between them. -/
theorem near_of_past_middle {a b c r : ℚ} (step : a < b) (outside : c ≤ a) (past : a + b ≤ 2 * r) :
    |r - b| ≤ |r - c| ∧ (|r - c| = |r - b| → a + b = 2 * r) := by
  have away : |r - c| = r - c := abs_of_nonneg (by linarith)
  rw [away]
  constructor
  · exact abs_le.mpr ⟨by linarith, by linarith⟩
  · intro tie
    rcases abs_cases (r - b) with ⟨same, _⟩ | ⟨same, _⟩ <;> linarith

namespace Format

variable {F : Format} {num den : Nat}

theorem unit_cast_pos (F : Format) : (0 : ℚ) < F.unit := Nat.cast_pos.mpr F.unit_pos

theorem lt_nearest_iff_rat (fine : 0 < F.fractionBits) (positive : 0 < den) {code : Nat}
    (finite : code < F.infinity) :
    code < F.nearest num den ↔ (F.quanta code + F.quanta (code + 1) : ℚ) < 2 * (num / den) ∨
      (F.quanta code + F.quanta (code + 1) : ℚ) = 2 * (num / den) ∧ code % 2 = 1 := by
  have part : (0 : ℚ) < den := Nat.cast_pos.mpr positive
  rw [lt_nearest_iff fine positive finite, mul_div_assoc', lt_div_iff₀ part, eq_div_iff part.ne']
  exact_mod_cast Iff.rfl

/-- No code is nearer to a quotient than the nearest one, and if one is as near, that is even. -/
theorem nearest_least (fine : 0 < F.fractionBits) (positive : 0 < den)
    (finite : F.nearest num den < F.infinity) (c : Nat) :
    |(num / den : ℚ) - F.quanta (F.nearest num den)| ≤ |(num / den : ℚ) - F.quanta c| ∧
      (c ≠ F.nearest num den →
        |(num / den : ℚ) - F.quanta c| = |(num / den : ℚ) - F.quanta (F.nearest num den)| →
          F.nearest num den % 2 = 0) := by
  have order {a b : Nat} (less : a < b) : (F.quanta a : ℚ) < F.quanta b :=
    Nat.cast_lt.mpr (quanta_lt less)
  have rounds {a : Nat} (small : a < F.infinity) : a < F.nearest num den ↔ _ :=
    lt_nearest_iff_rat fine positive small
  generalize F.nearest num den = code at rounds finite ⊢
  generalize (num / den : ℚ) = r at rounds ⊢
  rcases Nat.lt_trichotomy c code with less | rfl | more
  · obtain ⟨below, rfl⟩ := Nat.exists_eq_add_one_of_ne_zero (Nat.ne_zero_of_lt less)
    have passed := (rounds (Nat.lt_of_succ_lt finite)).mp (Nat.lt_add_one below)
    have past : (F.quanta below + F.quanta (below + 1) : ℚ) ≤ 2 * r :=
      passed.elim le_of_lt fun tie => le_of_eq tie.1
    have outside : (F.quanta c : ℚ) ≤ F.quanta below :=
      Nat.cast_le.mpr (quanta_le (Nat.le_of_lt_succ less))
    obtain ⟨near, tie⟩ := near_of_past_middle (order (Nat.lt_add_one below)) outside past
    refine ⟨near, fun _ same => ?_⟩
    have odd := (passed.resolve_left (tie same).ge.not_gt).2
    omega
  · exact ⟨le_refl _, fun other => absurd rfl other⟩
  · have stays := mt (rounds finite).mpr (Nat.lt_irrefl code)
    rw [not_or, not_lt] at stays
    have past : (-F.quanta (code + 1) + -F.quanta code : ℚ) ≤ 2 * -r := by linarith
    have outside : (-F.quanta c : ℚ) ≤ -F.quanta (code + 1) :=
      neg_le_neg (Nat.cast_le.mpr (quanta_le more))
    have step := neg_lt_neg (order (Nat.lt_add_one code))
    obtain ⟨near, tie⟩ := near_of_past_middle step outside past
    simp only [neg_sub_neg, abs_sub_comm _ r] at near tie
    refine ⟨near, fun _ same => ?_⟩
    have odd : ¬ code % 2 = 1 := fun odd => stays.2 ⟨by linarith [tie same], odd⟩
    omega

/-- The same with signs: a negative number is nearer to no quotient than zero is. -/
theorem nearest_least_signed (fine : 0 < F.fractionBits) (positive : 0 < den)
    (finite : F.nearest num den < F.infinity) {w : ℚ} {c : Nat}
    (either : w = F.quanta c ∨ w = -F.quanta c) :
    |(num / den : ℚ) - F.quanta (F.nearest num den)| ≤ |(num / den : ℚ) - w| ∧
      (w ≠ F.quanta (F.nearest num den) →
        |(num / den : ℚ) - w| = |(num / den : ℚ) - F.quanta (F.nearest num den)| →
          F.nearest num den % 2 = 0) := by
  have nonneg : (0 : ℚ) ≤ num / den := by positivity
  have least := nearest_least fine positive finite
  generalize F.nearest num den = code at least ⊢
  rcases either with rfl | rfl
  · refine ⟨(least c).1, fun other => (least c).2 ?_⟩
    rintro rfl
    exact other rfl
  · obtain ⟨near, tie⟩ := least 0
    have above : (0 : ℚ) ≤ F.quanta c := Nat.cast_nonneg _
    rw [quanta_zero, Nat.cast_zero, sub_zero, abs_of_nonneg nonneg] at near tie
    rw [sub_neg_eq_add, abs_of_nonneg (add_nonneg nonneg above)]
    refine ⟨by linarith, fun other same => tie ?_ (by linarith)⟩
    rintro rfl
    rw [quanta_zero, Nat.cast_zero] at other same
    rw [sub_zero, abs_of_nonneg nonneg] at same
    exact other (by linarith)

/-- A quotient is rounded to a finite number if it lies below the middle between the greatest one
and the power of two after it. -/
theorem nearest_lt_infinity_iff (fine : 0 < F.fractionBits) (positive : 0 < den) (num : Nat)
    {top : Nat} (last : top + 1 = F.infinity) (odd : top % 2 = 1) :
    F.nearest num den < F.infinity ↔
      (num / den : ℚ) < (F.quanta top + F.quanta F.infinity : ℚ) / 2 := by
  have reaches : top < F.nearest num den ↔ _ := lt_nearest_iff_rat fine positive (by omega)
  simp only [odd, and_true, ← le_iff_lt_or_eq, last] at reaches
  have bounded := F.nearest_le num den
  rw [lt_div_iff₀ two_pos, mul_comm, ← not_le (b := (2 * (num / den) : ℚ)), ← reaches]
  omega

end Format

namespace Number

variable {F : Format} {x y : Number F} {q : ℚ}

/-- A finite number as a rational. -/
def value (x : Number F) : ℚ := x.quanta / F.unit

def isNegative : Number F → Bool
  | nan => false
  | signed negative _ _ => negative

/-- Whether the last place of the significand is even. -/
def isEven : Number F → Bool
  | nan => false
  | signed _ code _ => code % 2 == 0

/-- The finite number that a rational is rounded to: the nearest one, or the even one of two. -/
structure NearestTo (x : Number F) (q : ℚ) : Prop where
  finite : x.isFinite = true
  least : ∀ y : Number F, y.isFinite = true → |q - x.value| ≤ |q - y.value|
  even : ∀ y : Number F, y.isFinite = true → y.value ≠ x.value → |q - y.value| = |q - x.value| →
    x.isEven = true

/-- A sign as a factor. -/
def sign (negative : Bool) : ℚ := if negative then -1 else 1

theorem sign_mul_self (negative : Bool) : sign negative * sign negative = 1 := by
  cases negative <;> simp [sign]

theorem abs_sign_mul (negative : Bool) (r : ℚ) : |sign negative * r| = |r| := by
  cases negative <;> simp [sign]

theorem value_signed {negative : Bool} {code : Nat} {bounded : code ≤ F.infinity} :
    (signed negative code bounded : Number F).value = sign negative * (F.quanta code / F.unit) := by
  cases negative <;> simp [value, quanta, sign, neg_div]

@[simp]
theorem value_zero (negative : Bool) : (zero negative : Number F).value = 0 := by
  simp [zero, value_signed]

/-- On either side of a sign, a number is as many quanta as its code, or less than none. -/
theorem sign_mul_quanta (negative : Bool) (y : Number F) :
    ∃ c, sign negative * y.quanta = F.quanta c ∨ sign negative * y.quanta = -F.quanta c := by
  cases y with
  | nan => exact ⟨0, .inl (by simp [quanta])⟩
  | signed t c bounded =>
    refine ⟨c, ?_⟩
    cases negative <;> cases t <;> simp [sign, quanta]

/-- Rounding gives the number that it should, if that is finite. -/
theorem nearestTo_nearest (fine : 0 < F.fractionBits) {num den : Nat} (positive : 0 < den)
    (finite : F.nearest num den < F.infinity) (negative : Bool) :
    (nearest negative num den : Number F).NearestTo (sign negative * (num / den / F.unit)) := by
  have unit := F.unit_cast_pos
  have least {w : ℚ} {c : Nat} := Format.nearest_least_signed (w := w) (c := c) fine positive finite
  have self : sign negative * (nearest negative num den : Number F).quanta
      = F.quanta (F.nearest num den) := by
    cases negative <;> simp [sign, nearest, quanta]
  -- a distance in quanta, on the side of the quotient
  have scaled (y : Number F) : |sign negative * (num / den / F.unit) - y.value|
      = |(num / den : ℚ) - sign negative * y.quanta| / F.unit := by
    rw [← abs_sign_mul negative, ← abs_of_pos unit, ← abs_div, abs_of_pos unit]
    congr 1
    simp only [value]
    linear_combination (num / den / F.unit : ℚ) * sign_mul_self negative
  constructor
  · exact decide_eq_true finite
  · intro y _
    obtain ⟨c, either⟩ := sign_mul_quanta negative y
    rw [scaled, scaled, self]
    exact div_le_div_of_nonneg_right (least either).1 unit.le
  · intro y _ other tie
    obtain ⟨c, either⟩ := sign_mul_quanta negative y
    rw [scaled, scaled, self, div_left_inj' unit.ne'] at tie
    refine beq_iff_eq.mpr ((least either).2 ?_ tie)
    intro same
    apply other
    unfold value
    congr 1
    linear_combination sign negative * (same.trans self.symm)
      - (y.quanta - (nearest negative num den : Number F).quanta : ℚ) * sign_mul_self negative

/-- A number and the rational that it is rounded from, if need be to infinity. -/
def Rounded (x : Number F) (q : ℚ) : Prop :=
  ∃ negative num den, 0 < den ∧ x = nearest negative num den ∧
    q = sign negative * (num / den / F.unit)

theorem Rounded.nearestTo (fine : 0 < F.fractionBits) (rounded : x.Rounded q)
    (finite : x.isFinite = true) : x.NearestTo q := by
  obtain ⟨negative, num, den, positive, rfl, rfl⟩ := rounded
  exact nearestTo_nearest fine positive (of_decide_eq_true finite) negative

/-- Half a unit in the last place beyond the greatest single. -/
def limit : ℚ := 2 ^ 128 - 2 ^ 103

theorem Rounded.isFinite_iff {x : Single} (rounded : x.Rounded q) :
    x.isFinite = true ↔ |q| < limit := by
  obtain ⟨negative, num, den, positive, rfl, rfl⟩ := rounded
  have unit := Format.single.unit_cast_pos
  have middle : Format.single.quanta (Format.single.infinity - 1)
      + Format.single.quanta Format.single.infinity
        = 2 * (2 ^ 128 - 2 ^ 103) * Format.single.unit := by decide
  have half : (Format.single.quanta (Format.single.infinity - 1)
      + Format.single.quanta Format.single.infinity : ℚ) / 2 = limit * Format.single.unit := by
    rw [← Nat.cast_add, middle, limit]
    push_cast
    ring
  have last : Format.single.infinity - 1 + 1 = Format.single.infinity := by decide
  have below := Format.nearest_lt_infinity_iff (by decide) positive num last (by decide)
  rw [half, ← div_lt_iff₀ unit] at below
  have nonneg :=
    div_nonneg (div_nonneg (Nat.cast_nonneg (α := ℚ) num) (Nat.cast_nonneg den)) unit.le
  rw [abs_sign_mul, abs_of_nonneg nonneg, ← below]
  exact decide_eq_true_iff

theorem abs_sub_value {negative : Bool} {code : Nat} {bounded : code ≤ F.infinity} :
    |q - (signed negative code bounded : Number F).value|
      = |sign negative * q - F.quanta code / F.unit| := by
  rw [value_signed, ← abs_sign_mul negative]
  congr 1
  linear_combination (-(F.quanta code / F.unit) : ℚ) * sign_mul_self negative

theorem NearestTo.code_le {a b : Nat} {ha : a ≤ F.infinity} {hb : b ≤ F.infinity} {s : Bool}
    (first : (signed s a ha : Number F).NearestTo q)
    (second : (signed s b hb : Number F).NearestTo q) : b ≤ a := by
  have unit := F.unit_cast_pos
  have order {c d : Nat} (less : c < d) : (F.quanta c / F.unit : ℚ) < F.quanta d / F.unit :=
    div_lt_div_of_pos_right (Nat.cast_lt.mpr (Format.quanta_lt less)) unit
  apply Nat.le_of_not_lt
  intro less
  have tie := le_antisymm (first.least _ second.finite) (second.least _ first.finite)
  have apart : (signed s a ha : Number F).value ≠ (signed s b hb : Number F).value := by
    intro same
    have factor := congrArg (sign s * ·) same
    simp only [value_signed, ← mul_assoc, sign_mul_self, one_mul] at factor
    exact (order less).ne factor
  have even : a % 2 = 0 := beq_iff_eq.mp (first.even _ second.finite apart.symm tie.symm)
  have even' : b % 2 = 0 := beq_iff_eq.mp (second.even _ first.finite apart tie)
  -- the code between the two is nearer than either
  have between : a + 1 < b := by omega
  have least := first.least (signed s (a + 1) (by omega))
    (decide_eq_true (Nat.lt_of_lt_of_le between hb))
  rw [abs_sub_value, abs_sub_value] at least tie
  have low := order (Nat.lt_add_one a)
  have high := order between
  rcases abs_cases (sign s * q - F.quanta a / F.unit) with ⟨one, _⟩ | ⟨one, _⟩ <;>
  rcases abs_cases (sign s * q - F.quanta b / F.unit) with ⟨two, _⟩ | ⟨two, _⟩ <;>
  rcases abs_cases (sign s * q - F.quanta (a + 1) / F.unit) with ⟨three, _⟩ | ⟨three, _⟩ <;>
  linarith

/-- There is one such number with each sign. -/
theorem NearestTo.unique (first : x.NearestTo q) (second : y.NearestTo q)
    (same : x.isNegative = y.isNegative) : x = y := by
  cases x with
  | nan => cases first.finite
  | signed s a ha =>
    cases y with
    | nan => cases second.finite
    | signed t b hb =>
      cases same
      have codes := Nat.le_antisymm (second.code_le first) (first.code_le second)
      subst codes
      rfl

end Number

end Turtle
