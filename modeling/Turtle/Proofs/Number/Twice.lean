import Turtle.Proofs.Number.Bounds
import Mathlib.Tactic.Linarith
import Mathlib.Tactic.Ring

/-! Rounding twice: a quotient is rounded in double precision, and the double in single precision.
Every middle between two singles is itself a double. So the second rounding goes the way of the
first quotient, unless that lies so close to a middle that the first rounding reaches it. -/
namespace Turtle

theorem twoTo_add (m n : Nat) : twoTo (m + n) = twoTo m * twoTo n := by
  simp only [twoTo_eq_pow]
  exact Nat.pow_add 2 m n

namespace Format

variable {F : Format} {num den code : Nat}

theorem eq_of_lt_iff {top a b : Nat} (first : a ≤ top) (second : b ≤ top)
    (alike : ∀ code < top, code < a ↔ code < b) : a = b := by
  rcases Nat.lt_trichotomy a b with less | same | more
  · exact absurd ((alike a (Nat.lt_of_lt_of_le less second)).mpr less) (Nat.lt_irrefl a)
  · exact same
  · exact absurd ((alike b (Nat.lt_of_lt_of_le more first)).mp more) (Nat.lt_irrefl b)

theorem quanta_add_binade (normal : F.binade ≤ code) :
    F.quanta (code + F.binade) = 2 * F.quanta code := by
  have whole : 1 ≤ code / F.binade := (Nat.one_le_div_iff F.binade_pos).mpr normal
  have next : (code + F.binade) / F.binade = code / F.binade - 1 + 1 + 1 := by
    rw [Nat.add_div_right _ F.binade_pos]
    omega
  have above : ¬ code + F.binade < F.binade := by omega
  simp only [quanta, if_neg above, if_neg (Nat.not_lt_of_le normal), Nat.add_mod_right, next,
    Nat.add_sub_cancel, shiftLeft_eq_mul, twoTo_succ]
  exact Nat.mul_left_comm _ _ _

/-- A number with few enough digits in base two is exact, however far it is shifted. -/
theorem exists_quanta (n shift : Nat) (short : n ≤ 2 * F.binade) :
    ∃ code, F.quanta code = n * twoTo shift := by
  induction shift with
  | zero =>
    refine ⟨0 * F.binade + n, ?_⟩
    simpa using quanta_mul_add 0 n (.inl rfl) short
  | succ shift ih =>
    obtain ⟨code, holds⟩ := ih
    rw [twoTo_succ, Nat.mul_left_comm, ← holds]
    by_cases normal : F.binade ≤ code
    · exact ⟨_, quanta_add_binade normal⟩
    · have low : F.quanta code = code := if_pos (Nat.lt_of_not_le normal)
      have double := quanta_mul_add (F := F) 0 (2 * code) (.inl rfl) (by omega)
      refine ⟨0 * F.binade + 2 * code, ?_⟩
      rw [double, low]
      simp [twoTo]

/-- Whole numbers that fit the significand of a double are exact. -/
theorem quanta_nearest_of_short {n : Nat} (short : n ≤ 2 * double.binade) :
    double.quanta (double.nearest (n * double.unit) 1) = n * double.unit := by
  obtain ⟨code, exact⟩ := exists_quanta (F := double) n 1074 short
  have unit : double.unit = twoTo 1074 := rfl
  have bounded : code ≤ double.infinity := by
    apply Nat.le_of_lt
    apply lt_of_quanta_lt (F := double)
    rw [exact]
    calc n * twoTo 1074 ≤ 2 * double.binade * twoTo 1074 := Nat.mul_le_mul_right _ short
      _ < double.quanta double.infinity := by decide +kernel
  rw [unit, ← exact, nearest_quanta_one (by decide) bounded]

theorem gap_mul_binade_le (normal : F.binade ≤ code) :
    F.gap (code + 1) * F.binade ≤ F.quanta code := by
  rw [gap_succ, quanta, if_neg (Nat.not_lt_of_le normal), shiftLeft_eq_mul, Nat.mul_comm]
  exact Nat.mul_le_mul_right _ (Nat.le_add_right _ _)

/-- A quotient that exceeds a number by more than half a unit in its last place. -/
theorem lt_nearest_of_far (fine : 0 < F.fractionBits) (positive : 0 < den)
    (finite : code < F.infinity) (normal : F.binade ≤ code)
    (far : (2 * F.binade + 1) * (F.quanta code * den) < 2 * F.binade * num) :
    code < F.nearest num den := by
  apply (lt_nearest_iff fine positive finite).mpr
  left
  have narrow := Nat.mul_le_mul_right den (gap_mul_binade_le normal)
  have climb := quanta_add_gap (F := F) code
  apply Nat.lt_of_mul_lt_mul_left (a := F.binade)
  calc F.binade * ((F.quanta code + F.quanta (code + 1)) * den)
      = 2 * F.binade * (F.quanta code * den) + F.gap (code + 1) * F.binade * den := by
        rw [← climb]; ring
    _ ≤ 2 * F.binade * (F.quanta code * den) + F.quanta code * den := Nat.add_le_add_left narrow _
    _ = (2 * F.binade + 1) * (F.quanta code * den) := by ring
    _ < 2 * F.binade * num := far
    _ = F.binade * (2 * num) := by ring

theorem nearest_lt_of_far (fine : 0 < F.fractionBits) (positive : 0 < den)
    (finite : code ≤ F.infinity) (normal : F.binade < code)
    (far : 2 * F.binade * num + F.quanta code * den < 2 * F.binade * (F.quanta code * den)) :
    F.nearest num den < code := by
  obtain ⟨below, rfl⟩ := Nat.exists_eq_succ_of_ne_zero (Nat.ne_of_gt (Nat.zero_lt_of_lt normal))
  apply Nat.lt_of_not_le
  intro above
  have passed := (lt_nearest_iff fine positive finite).mp above
  have narrow := Nat.mul_le_mul_right den (gap_mul_binade_le (Nat.le_of_lt_succ normal))
  have climb := quanta_add_gap (F := F) below
  have reached : F.binade * ((F.quanta below + F.quanta (below + 1)) * den)
      ≤ F.binade * (2 * num) := Nat.mul_le_mul_left _ (by omega)
  have steps : F.quanta below * den ≤ F.quanta (below + 1) * den :=
    Nat.mul_le_mul_right den (quanta_le (Nat.le_succ below))
  rw [Nat.succ_eq_add_one, ← climb] at far
  rw [← climb] at reached steps
  nlinarith

/-- A quotient with a normal number nearest to it is off by no more than half a unit in the last place
of that number. -/
theorem nearest_within (fine : 0 < F.fractionBits) (positive : 0 < den)
    (normal : F.binade < F.nearest num den) (finite : F.nearest num den < F.infinity) :
    2 * F.binade * num ≤ (2 * F.binade + 1) * (F.quanta (F.nearest num den) * den) ∧
      2 * F.binade * (F.quanta (F.nearest num den) * den)
        ≤ 2 * F.binade * num + F.quanta (F.nearest num den) * den := by
  constructor
  · apply Nat.le_of_not_lt
    intro far
    exact Nat.lt_irrefl _ (lt_nearest_of_far fine positive finite (Nat.le_of_lt normal) far)
  · apply Nat.le_of_not_lt
    intro far
    exact Nat.lt_irrefl _ (nearest_lt_of_far fine positive (Nat.le_of_lt finite) normal far)

end Format

/-- The single that comes of a quotient of doubles, rounded twice. -/
def Format.through (num den : Nat) : Nat :=
  single.nearest (double.quanta (double.nearest num den) * single.unit) double.unit

namespace Format

variable {num den code : Nat}

/-- Twice the middle between a single and the next, in quanta. -/
def middle (code : Nat) : Nat := single.quanta code + single.quanta (code + 1)

/-- Every middle is odd but for a power of two, with no more digits than a single and one. -/
theorem middle_eq (finite : code < single.infinity) : ∃ odd shift, middle code = odd * twoTo shift ∧
    odd % 4 = 2 * (code % 2) + 1 ∧ odd < 2 * twoTo 24 ∧ shift < 254 ∧
    (shift = 0 ∨ twoTo 24 ≤ odd) := by
  have whole := Nat.div_add_mod code single.binade
  have part := Nat.mod_lt code single.binade_pos
  have size : single.binade = 8388608 := by decide
  have full : twoTo 24 = 16777216 := by decide
  have top : single.infinity = 2139095040 := by decide
  rw [size] at whole part
  rw [top] at finite
  obtain ⟨shift, place, same, low, high⟩ : ∃ shift place,
      code = shift * single.binade + place ∧ (shift = 0 ∨ single.binade ≤ place) ∧
        place < 2 * single.binade := by
    rw [size]
    by_cases small : code < 8388608
    · exact ⟨0, code, by omega, .inl rfl, by omega⟩
    · exact ⟨code / 8388608 - 1, 8388608 + code % 8388608, by omega, .inr (by omega), by omega⟩
  have twice : middle (shift * single.binade + place) * 1 = _ := middle_of_place shift place low high
  rw [size] at same low high
  refine ⟨2 * place + 1, shift, ?_, by omega, by omega, by omega, by omega⟩
  rw [same, ← size]
  simpa using twice

/-- Every middle between two singles is a double. -/
theorem exists_double_middle (finite : code < single.infinity) :
    ∃ halfway, double.quanta halfway = middle code * twoTo 924 ∧ double.binade < halfway ∧
      halfway < double.infinity := by
  obtain ⟨odd, shift, same, parity, short, bounded, _⟩ := middle_eq finite
  have wide : 2 * twoTo 24 ≤ 2 * double.binade := by decide
  obtain ⟨found, holds⟩ := exists_quanta (F := double) odd (shift + 924) (by omega)
  have value : double.quanta found = middle code * twoTo 924 := by
    rw [holds, same, twoTo_add, Nat.mul_assoc]
  refine ⟨found, value, ?_, ?_⟩
  · apply lt_of_quanta_lt (F := double)
    rw [holds]
    calc double.quanta double.binade < 1 * twoTo 924 := by decide +kernel
      _ ≤ odd * twoTo (shift + 924) := Nat.mul_le_mul (by omega) (twoTo_le (by omega))
  · apply lt_of_quanta_lt (F := double)
    rw [holds]
    calc odd * twoTo (shift + 924) ≤ 2 * twoTo 24 * twoTo 1178 :=
          Nat.mul_le_mul (Nat.le_of_lt short) (twoTo_le (by omega))
      _ < double.quanta double.infinity := by decide +kernel

theorem through_le (num den : Nat) : through num den ≤ single.infinity := single.nearest_le _ _

theorem lt_through_iff (finite : code < single.infinity) {halfway : Nat}
    (same : double.quanta halfway = middle code * twoTo 924) :
    code < through num den ↔
      halfway < double.nearest num den ∨ halfway = double.nearest num den ∧ code % 2 = 1 := by
  have scale : double.unit = twoTo 924 * (2 * single.unit) := by decide +kernel
  have positive : 0 < 2 * single.unit := by decide +kernel
  unfold through
  rw [lt_nearest_iff (by decide) double.unit_pos finite]
  change middle code * double.unit < _ ∨ middle code * double.unit = _ ∧ _ ↔ _
  generalize double.nearest num den = found
  rw [scale, ← Nat.mul_assoc, ← same, Nat.mul_left_comm 2 _ single.unit,
    Nat.mul_lt_mul_right positive, Nat.mul_left_inj (Nat.ne_of_gt positive)]
  have order : double.quanta halfway < double.quanta found ↔ halfway < found :=
    ⟨lt_of_quanta_lt, quanta_lt⟩
  have level : double.quanta halfway = double.quanta found ↔ halfway = found := by
    constructor
    · intro equal
      rcases Nat.lt_trichotomy halfway found with less | same | more
      · exact absurd equal (Nat.ne_of_lt (quanta_lt less))
      · exact same
      · exact absurd equal (Nat.ne_of_gt (quanta_lt more))
    · exact congrArg _
  rw [order, level]

/-- How a quotient that is rounded twice lies to a middle: as another quotient does, and not much
closer. Both are in quanta of the doubles, and so is the middle. -/
structure Clear (num den whole part code : Nat) : Prop where
  above : middle code * twoTo 924 * part < whole →
    (2 * double.binade + 1) * (middle code * twoTo 924 * den) < 2 * double.binade * num
  below : whole < middle code * twoTo 924 * part →
    2 * double.binade * num + middle code * twoTo 924 * den
      < 2 * double.binade * (middle code * twoTo 924 * den)
  level : whole = middle code * twoTo 924 * part → num = middle code * twoTo 924 * den

/-- Two roundings of a quotient go the same way at a middle as one rounding of the other. -/
theorem lt_through_iff_of_clear {whole part : Nat} (positive : 0 < den) (proper : 0 < part)
    (finite : code < single.infinity) (clear : Clear num den whole part code) :
    code < through num den ↔ code < single.nearest (whole * single.unit) (part * double.unit) := by
  have scale : double.unit = twoTo 924 * (2 * single.unit) := by decide +kernel
  have wide : 0 < 2 * single.unit := by decide +kernel
  obtain ⟨halfway, same, normal, bounded⟩ := exists_double_middle finite
  obtain ⟨above, below, level⟩ := clear
  rw [lt_through_iff finite same,
    lt_nearest_iff (by decide) (Nat.mul_pos proper double.unit_pos) finite]
  change _ ↔ middle code * (part * double.unit) < _ ∨ middle code * (part * double.unit) = _ ∧ _
  have cross : middle code * (part * double.unit)
      = middle code * twoTo 924 * part * (2 * single.unit) := by
    rw [scale]
    ring
  rw [cross, Nat.mul_left_comm 2 whole, Nat.mul_lt_mul_right wide,
    Nat.mul_left_inj (Nat.ne_of_gt wide)]
  rw [← same] at above below level ⊢
  rcases Nat.lt_trichotomy (double.quanta halfway * part) whole with less | equal | more
  · have passed := lt_nearest_of_far (by decide) positive bounded (Nat.le_of_lt normal) (above less)
    exact iff_of_true (.inl passed) (.inl less)
  · have reached : halfway = double.nearest num den := by
      rw [level equal.symm, nearest_quanta (by decide) positive (Nat.le_of_lt bounded)]
    simp [← reached, equal]
  · have under := nearest_lt_of_far (by decide) positive (Nat.le_of_lt bounded) normal (below more)
    refine iff_of_false ?_ ?_
    · omega
    · omega

/-- Two roundings of a quotient come to one rounding of the other, if no middle is in the way. -/
theorem through_eq_nearest {whole part : Nat} (positive : 0 < den) (proper : 0 < part)
    (clear : ∀ code < single.infinity, Clear num den whole part code) :
    through num den = single.nearest (whole * single.unit) (part * double.unit) :=
  eq_of_lt_iff (through_le num den) (single.nearest_le _ _) fun code finite =>
    lt_through_iff_of_clear positive proper finite (clear code finite)

end Format
end Turtle
