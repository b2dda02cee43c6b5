import Turtle.Proofs.Number.Value

/-! How far an operation is off.
The result of each is the exact one, rounded once: it is off by half a unit in the last place, or by
half a quantum where that is more. -/
namespace Turtle

namespace Format

variable {F : Format} {num den : Nat}

/-- A gap is one quantum, or it is small for where it lies. -/
theorem gap_small (code : Nat) :
    F.gap (code + 1) = 1 ∨ F.gap (code + 1) * F.binade ≤ F.quanta code := by
  rw [gap_succ]
  unfold quanta
  split
  · rename_i low
    left
    rw [Nat.div_eq_of_lt low]
    rfl
  · right
    rw [shiftLeft_eq_mul, Nat.mul_comm]
    exact Nat.mul_le_mul_right _ (Nat.le_add_right _ _)

theorem half_gap_le (code : Nat) {q : ℚ} (above : F.quanta code ≤ q) :
    (F.quanta (code + 1) - F.quanta code : ℚ) / 2 ≤ q / (2 * F.binade) + 1 / 2 := by
  have width : (0 : ℚ) < F.binade := Nat.cast_pos.mpr F.binade_pos
  have nonneg : (0 : ℚ) ≤ q / (2 * F.binade) :=
    div_nonneg ((Nat.cast_nonneg _).trans above) (by positivity)
  have climb : (F.quanta code + F.gap (code + 1) : ℚ) = F.quanta (code + 1) := by
    exact_mod_cast quanta_add_gap (F := F) code
  rw [← climb, add_sub_cancel_left]
  rcases gap_small (F := F) code with one | small
  · rw [one, Nat.cast_one]
    linarith
  · have part : (F.gap (code + 1) * F.binade : ℚ) ≤ q := le_trans (by exact_mod_cast small) above
    have share : (F.gap (code + 1) / 2 : ℚ) ≤ q / (2 * F.binade) := by
      rw [div_le_div_iff₀ two_pos (by positivity)]
      linarith
    linarith

theorem nearest_close (fine : 0 < F.fractionBits) (positive : 0 < den)
    (finite : F.nearest num den < F.infinity) :
    |(F.quanta (F.nearest num den) : ℚ) - num / den| ≤ num / den / (2 * F.binade) + 1 / 2 := by
  have nonneg : (0 : ℚ) ≤ num / den := by positivity
  have rounds {a : Nat} (small : a < F.infinity) : a < F.nearest num den ↔ _ :=
    lt_nearest_iff_rat fine positive small
  generalize F.nearest num den = code at rounds finite ⊢
  generalize (num / den : ℚ) = r at rounds nonneg ⊢
  have slack : (0 : ℚ) ≤ r / (2 * F.binade) + 1 / 2 := by positivity
  rw [abs_le]
  constructor
  · have stays := mt (rounds finite).mpr (Nat.lt_irrefl code)
    rw [not_or, not_lt] at stays
    rcases le_total (F.quanta code : ℚ) r with low | high
    · linarith [half_gap_le code low]
    · linarith
  · cases code with
    | zero =>
      rw [quanta_zero, Nat.cast_zero]
      linarith
    | succ code =>
      have passed := (rounds (Nat.lt_of_succ_lt finite)).mp (Nat.lt_add_one code)
      have past : (F.quanta code + F.quanta (code + 1) : ℚ) ≤ 2 * r :=
        passed.elim le_of_lt fun tie => le_of_eq tie.1
      have order : (F.quanta code : ℚ) ≤ F.quanta (code + 1) :=
        Nat.cast_le.mpr (quanta_le (Nat.le_succ code))
      linarith [half_gap_le (F := F) code (by linarith : (F.quanta code : ℚ) ≤ r)]

end Format

namespace Number

variable {F : Format} {q r : ℚ}

theorem Rounded.close_of_finite (fine : 0 < F.fractionBits) {x : Number F} (rounded : x.Rounded q)
    (finite : x.isFinite = true) : |x.value - q| ≤ |q| / (2 * F.binade) + 1 / (2 * F.unit) := by
  obtain ⟨negative, num, den, positive, rfl, rfl⟩ := rounded
  have unit := F.unit_cast_pos
  have nonneg : (0 : ℚ) ≤ num / den / F.unit := by positivity
  have close := Format.nearest_close fine positive (of_decide_eq_true finite)
  unfold nearest
  rw [value_signed, ← mul_sub, abs_sign_mul, abs_sign_mul, abs_of_nonneg nonneg, ← sub_div, abs_div,
    abs_of_pos unit]
  refine (div_le_div_of_nonneg_right close unit.le).trans (le_of_eq ?_)
  field_simp

section Operations

variable {x y : Number F}

theorem sign_bne (s t : Bool) : sign (s != t) = sign s * sign t := by
  cases s <;> cases t <;> simp [sign]

theorem Rounded.mul (first : x.isFinite = true) (second : y.isFinite = true) :
    (x * y).Rounded (x.value * y.value) := by
  cases x with
  | nan => cases first
  | signed s a ha =>
    cases y with
    | nan => cases second
    | signed t b hb =>
      refine ⟨_, _, _, F.unit_pos,
        mul_of_finite (of_decide_eq_true first) (of_decide_eq_true second), ?_⟩
      rw [value_signed, value_signed, sign_bne]
      push_cast
      ring

theorem Rounded.div (first : x.isFinite = true) (second : y.isFinite = true)
    (proper : y.isZero = false) : (x / y).Rounded (x.value / y.value) := by
  cases x with
  | nan => cases first
  | signed s a ha =>
    cases y with
    | nan => cases second
    | signed t b hb =>
      have nonzero : b ≠ 0 := ne_of_beq_false proper
      have positive : 0 < F.quanta b := Format.quanta_pos (Nat.pos_of_ne_zero nonzero)
      refine ⟨_, _, _, positive,
        div_of_finite (of_decide_eq_true first) (of_decide_eq_true second) nonzero, ?_⟩
      rw [value_signed, value_signed, sign_bne]
      have unit := F.unit_cast_pos.ne'
      have quotient : (F.quanta b : ℚ) ≠ 0 := Nat.cast_ne_zero.mpr positive.ne'
      cases t <;> simp only [sign, if_true, Bool.false_eq_true, if_false] <;> push_cast <;>
        field_simp

theorem Rounded.add (first : x.isFinite = true) (second : y.isFinite = true) :
    (x + y).Rounded (x.value + y.value) := by
  cases x with
  | nan => cases first
  | signed s a ha =>
    cases y with
    | nan => cases second
    | signed t b hb =>
      refine ⟨_, _, _, Nat.one_pos,
        add_of_finite (of_decide_eq_true first) (of_decide_eq_true second), ?_⟩
      rw [value, value, ← add_div, ← Int.cast_add, Nat.cast_one, div_one, mul_div_assoc']
      congr 1
      generalize (signed s a ha : Number F).quanta + (signed t b hb : Number F).quanta = sum
      rw [Nat.cast_natAbs, Int.cast_abs]
      rcases lt_trichotomy sum 0 with below | rfl | above
      · have real : (sum : ℚ) < 0 := Int.cast_lt_zero.mpr below
        simp [sign, below, below.ne, abs_of_neg real]
      · simp
      · have real : (0 : ℚ) < sum := Int.cast_pos.mpr above
        simp [sign, above.ne', not_lt.mpr above.le, abs_of_pos real]

theorem floorSqrt_bounds (n : Nat) :
    floorSqrt (n.log2 / 2 + 1) n * floorSqrt (n.log2 / 2 + 1) n ≤ n ∧
      n < (floorSqrt (n.log2 / 2 + 1) n + 1) * (floorSqrt (n.log2 / 2 + 1) n + 1) := by
  refine ⟨floorSqrt_sq_le _ _, lt_floorSqrt_succ_sq _ _ ?_⟩
  rw [twoTo_eq_pow]
  exact Nat.lt_of_lt_of_le Nat.lt_log2_self (Nat.pow_le_pow_right (by decide) (by omega))

/-- What is rounded is not the root itself, but its square is very close. -/
theorem Unsigned.sqrt_rounded (plain : x.Unsigned) (finite : x.isFinite = true)
    (proper : x.isZero = false) : ∃ r : ℚ, 0 ≤ r ∧ x.sqrt.Rounded r ∧
      |r ^ 2 - x.value| ≤ r / F.unit + 1 / F.unit ^ 2 := by
  obtain ⟨code, bounded, rfl⟩ := plain
  have small : code ≠ F.infinity := Nat.ne_of_lt (of_decide_eq_true finite)
  have nonzero : code ≠ 0 := ne_of_beq_false proper
  have unit := F.unit_cast_pos
  obtain ⟨low, high⟩ := floorSqrt_bounds (F.quanta code * F.unit)
  have value : (signed false code bounded : Number F).value
      = (F.quanta code * F.unit : Nat) / (F.unit : ℚ) ^ 2 := by
    rw [value_signed]
    simp only [sign, Bool.false_eq_true, if_false, one_mul, Nat.cast_mul]
    field_simp
  simp only [sqrt, nonzero, small, Bool.false_eq_true, if_false]
  rw [value]
  generalize F.quanta code * F.unit = square at low high ⊢
  generalize floorSqrt (square.log2 / 2 + 1) square = root at low high ⊢
  have below : (root * root : ℚ) ≤ square := by exact_mod_cast low
  have above : (square : ℚ) ≤ (root + 1) * (root + 1) := by exact_mod_cast high.le
  have near : |((2 * root + if root * root = square then 0 else 1 : Nat) / 2 : ℚ) ^ 2 - square|
      ≤ (2 * root + if root * root = square then 0 else 1 : Nat) / 2 + 1 := by
    split_ifs with exact
    · have same : (root * root : ℚ) = square := by exact_mod_cast exact
      rw [abs_le]
      push_cast
      constructor <;> linarith [Nat.cast_nonneg (α := ℚ) root]
    · rw [abs_le]
      push_cast
      constructor <;> linarith [Nat.cast_nonneg (α := ℚ) root]
  generalize (2 * root + if root * root = square then 0 else 1) = n at near ⊢
  refine ⟨n / 2 / F.unit, by positivity, ⟨false, n, 2, by decide, rfl, ?_⟩, ?_⟩
  · simp [sign]
  · have scaled : (n / 2 / F.unit : ℚ) ^ 2 - square / (F.unit : ℚ) ^ 2
        = ((n / 2 : ℚ) ^ 2 - square) / (F.unit : ℚ) ^ 2 := by ring
    have slack : (n / 2 / F.unit / F.unit + 1 / (F.unit : ℚ) ^ 2 : ℚ)
        = (n / 2 + 1) / (F.unit : ℚ) ^ 2 := by
      field_simp
    rw [scaled, slack, abs_div, abs_of_pos (by positivity : (0 : ℚ) < (F.unit : ℚ) ^ 2)]
    exact div_le_div_of_nonneg_right near (by positivity)

theorem Unsigned.sqrt (plain : x.Unsigned) : x.sqrt.Unsigned := by
  obtain ⟨code, bounded, rfl⟩ := plain
  simp only [Number.sqrt, Bool.false_eq_true, if_false]
  split
  · exact ⟨_, _, rfl⟩
  · split
    · exact ⟨_, _, rfl⟩
    · exact unsigned_nearest _ _

theorem isFinite_of_add (finite : (x + y).isFinite = true) :
    x.isFinite = true ∧ y.isFinite = true := by
  change (Number.add x y).isFinite = true at finite
  cases x with
  | nan => cases finite
  | signed s a ha =>
    cases y with
    | nan => cases finite
    | signed t b hb =>
      by_cases first : a = F.infinity
      · simp only [Number.add, first, if_true] at finite
        split at finite <;> simp [isFinite] at finite
      · by_cases second : b = F.infinity
        · simp [Number.add, first, second, isFinite] at finite
        · exact ⟨decide_eq_true (Nat.lt_of_le_of_ne ha first),
            decide_eq_true (Nat.lt_of_le_of_ne hb second)⟩

theorem unsigned_mul_self (finite : x.isFinite = true) : (x * x).Unsigned := by
  cases x with
  | nan => cases finite
  | signed s a ha =>
    have small := of_decide_eq_true finite
    rw [mul_of_finite small small, bne_self_eq_false]
    exact unsigned_nearest _ _

theorem Unsigned.value_nonneg (plain : x.Unsigned) : 0 ≤ x.value := by
  obtain ⟨code, bounded, rfl⟩ := plain
  rw [value_signed]
  simp only [sign, Bool.false_eq_true, if_false, one_mul]
  positivity

theorem abs_value (s : Bool) {a : Nat} {ha : a ≤ F.infinity} :
    |(signed s a ha : Number F).value| = F.quanta a / F.unit := by
  rw [value_signed, abs_sign_mul, abs_of_nonneg (by positivity)]

theorem isZero_of_value_ne (finite : x.isFinite = true) (proper : x.value ≠ 0) :
    x.isZero = false := by
  cases x with
  | nan => cases finite
  | signed s a ha =>
    apply beq_false_of_ne
    rintro rfl
    rw [value_signed, Format.quanta_zero, Nat.cast_zero, zero_div, mul_zero] at proper
    exact proper rfl

/-- What is rounded from zero is zero. -/
theorem Rounded.value_eq_zero (fine : 0 < F.fractionBits) (rounded : x.Rounded 0) :
    x.value = 0 := by
  obtain ⟨negative, num, den, positive, rfl, zero⟩ := rounded
  have unit := F.unit_cast_pos.ne'
  have part : (den : ℚ) ≠ 0 := Nat.cast_ne_zero.mpr positive.ne'
  have quotient := congrArg (fun w : ℚ => |w|) zero
  rw [abs_zero, abs_sign_mul, eq_comm, abs_eq_zero, div_eq_zero_iff, div_eq_zero_iff] at quotient
  have none : num = 0 := by simpa [unit, part] using quotient
  subst none
  have origin := Format.nearest_quanta (F := F) fine positive (Nat.zero_le _)
  rw [Format.quanta_zero, Nat.zero_mul] at origin
  unfold nearest
  simp [value_signed, origin]

end Operations

section Singles

variable {x : Single}

theorem value_one : (1 : Single).isFinite = true ∧ (1 : Single).value = 1 := by
  have same : (1 : Single) = .signed false 0x3F800000 (by decide) := by decide
  have quanta : Format.single.quanta 0x3F800000 = Format.single.unit := by decide
  have unit := Format.single.unit_cast_pos.ne'
  rw [same, value_signed, quanta, div_self unit]
  exact ⟨rfl, mul_one 1⟩

theorem value_half : (ofRatio false 1 2 : Single).isFinite = true ∧
    (ofRatio false 1 2 : Single).value = 1 / 2 := by
  have same : (ofRatio false 1 2 : Single) = .signed false 0x3F000000 (by decide) := by
    decide
  have quanta : 2 * Format.single.quanta 0x3F000000 = Format.single.unit := by decide
  have unit := Format.single.unit_cast_pos.ne'
  have share : (Format.single.quanta 0x3F000000 / Format.single.unit : ℚ) = 1 / 2 := by
    rw [div_eq_div_iff unit two_ne_zero, one_mul, mul_comm]
    exact_mod_cast quanta
  rw [same, value_signed, share]
  exact ⟨rfl, one_mul _⟩

/-- Off by no more than one rounding in single precision. -/
def Off (x q : ℚ) : Prop := |x - q| ≤ |q| / 2 ^ 24 + 1 / 2 ^ 150

theorem Off.sq_close {x : ℚ} (off : Off x q) (small : |q| ≤ 2) :
    |x ^ 2 - q ^ 2| ≤ q ^ 2 / 2 ^ 22 + 1 / 2 ^ 140 := by
  unfold Off at off
  have nonneg := abs_nonneg q
  have sum : |x + q| ≤ 2 * |q| + (|q| / 2 ^ 24 + 1 / 2 ^ 150) := by
    calc |x + q| = |(x - q) + 2 * q| := by ring_nf
      _ ≤ |x - q| + |2 * q| := abs_add_le _ _
      _ ≤ _ := by
        rw [abs_mul, abs_two]
        linarith
  rw [← sq_abs q]
  calc |x ^ 2 - |q| ^ 2| = |x ^ 2 - q ^ 2| := by rw [sq_abs]
    _ = |x - q| * |x + q| := by rw [← abs_mul]; ring_nf
    _ ≤ (|q| / 2 ^ 24 + 1 / 2 ^ 150) * (2 * |q| + (|q| / 2 ^ 24 + 1 / 2 ^ 150)) :=
        mul_le_mul off sum (abs_nonneg _) (by positivity)
    _ ≤ |q| ^ 2 / 2 ^ 22 + 1 / 2 ^ 140 := by nlinarith

theorem Rounded.off (rounded : x.Rounded q) (finite : x.isFinite = true) : Off x.value q := by
  have binade : 2 * (Format.single.binade : ℚ) = 2 ^ 24 := by
    exact_mod_cast (by decide : 2 * Format.single.binade = 2 ^ 24)
  have unit : 2 * (Format.single.unit : ℚ) = 2 ^ 150 := by
    exact_mod_cast (by decide : 2 * Format.single.unit = 2 ^ 150)
  have close := rounded.close_of_finite (by decide) finite
  rwa [binade, unit] at close

theorem Rounded.off_of_small (rounded : x.Rounded q) (small : |q| ≤ 2 ^ 127) :
    x.isFinite = true ∧ Off x.value q := by
  have finite := rounded.isFinite_iff.mpr (small.trans_lt (by norm_num [limit]))
  exact ⟨finite, rounded.off finite⟩

theorem Unsigned.le_value_of_gt_epsilon (plain : x.Unsigned) (long : ¬x ≤ epsilon) :
    1 / 2 ^ 23 ≤ x.value := by
  obtain ⟨code, bounded, rfl⟩ := plain
  rw [epsilon_eq, unsigned_le_iff] at long
  have unit := Format.single.unit_cast_pos
  have step : 2 ^ 23 * Format.single.quanta 0x34000000 = Format.single.unit := by decide
  have more := Format.quanta_le (F := .single) (Nat.le_of_not_le long)
  have scaled : (Format.single.unit : ℚ) ≤ 2 ^ 23 * Format.single.quanta code := by
    rw [← step]
    exact_mod_cast Nat.mul_le_mul_left _ more
  rw [value_signed, sign, if_neg Bool.false_ne_true, one_mul, div_le_div_iff₀ (by positivity) unit]
  linarith

theorem abs_value_lt (finite : x.isFinite = true) : |x.value| < 2 ^ 128 := by
  cases x with
  | nan => cases finite
  | signed s a ha =>
    have unit := Format.single.unit_cast_pos
    have top : Format.single.quanta Format.single.infinity = 2 ^ 128 * Format.single.unit := by
      decide
    have less := Format.quanta_lt (F := .single) (of_decide_eq_true finite)
    rw [top] at less
    rw [abs_value, div_lt_iff₀ unit]
    exact_mod_cast less

end Singles

end Number
end Turtle
