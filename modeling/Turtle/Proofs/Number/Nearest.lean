import Turtle.Proofs.Number.Scale

/-! Rounding in a format, seen from the codes.
A quotient is rounded above a code exactly if it lies above the middle between that code and the
next, or in the middle when the code is odd. This says all there is to say about rounding, and
nothing else here opens its definition. -/
namespace Turtle

variable {num den : Nat}

theorem lt_roundDiv_iff (positive : 0 < den) (n : Nat) :
    n < roundDiv num den ↔
      (2 * n + 1) * den < 2 * num ∨ (2 * n + 1) * den = 2 * num ∧ n % 2 = 1 := by
  have whole := Nat.div_add_mod num den
  have rest := Nat.mod_lt num positive
  have middle : (2 * n + 1) * den = 2 * (den * n) + den := by
    rw [Nat.add_mul, Nat.one_mul, Nat.mul_assoc, Nat.mul_comm n den]
  rw [middle]
  unfold roundDiv
  dsimp only
  generalize num / den = q at whole ⊢
  generalize num % den = r at whole rest ⊢
  rcases Nat.lt_trichotomy n q with less | rfl | more
  · have apart : den * n + den ≤ den * q := by
      rw [← Nat.mul_succ]
      exact Nat.mul_le_mul_left den less
    split
    · omega
    · split <;> omega
  · split
    · omega
    · split <;> omega
  · have apart : den * q + den ≤ den * n := by
      rw [← Nat.mul_succ]
      exact Nat.mul_le_mul_left den more
    split
    · omega
    · split <;> omega

namespace Format

variable {F : Format}

theorem binade_even (fine : 0 < F.fractionBits) : F.binade % 2 = 0 := by
  obtain ⟨bits, width⟩ := Nat.exists_eq_succ_of_ne_zero (Nat.ne_of_gt fine)
  rw [binade, width, twoTo_succ, Nat.mul_mod_right]

/-- Where the step of the scale is `2 ^ shift` quanta, the quotient has a place in the upper of the
two binades with that step, or below its end if they are the lowest two. -/
theorem place_of_shift (F : Format) (num : Nat) (positive : 0 < den) :
    let shift := (num / den).log2 - F.fractionBits
    num < 2 * F.binade * (den * twoTo shift) ∧
      (shift = 0 ∨ F.binade * (den * twoTo shift) ≤ num) := by
  intro shift
  have power (n : Nat) : twoTo n = 2 ^ n := twoTo_eq_pow n
  constructor
  · have under : num / den < 2 ^ ((num / den).log2 + 1) := Nat.lt_log2_self
    have width : (num / den).log2 + 1 ≤ F.fractionBits + 1 + shift := by omega
    have ceiling : num / den < 2 * F.binade * twoTo shift := by
      rw [binade, ← twoTo_succ, power, power, ← Nat.pow_add]
      exact Nat.lt_of_lt_of_le under (Nat.pow_le_pow_right (by decide) width)
    rw [Nat.mul_left_comm, Nat.mul_comm den]
    exact (Nat.div_lt_iff_lt_mul positive).mp ceiling
  · by_cases lowest : shift = 0
    · exact .inl lowest
    · right
      have width : F.fractionBits + shift = (num / den).log2 := by omega
      have proper : num / den ≠ 0 := by
        intro zero
        simp only [shift, zero, Nat.log2_zero, Nat.zero_sub, not_true_eq_false] at lowest
      have floor : F.binade * twoTo shift ≤ num / den := by
        rw [binade, power, power, ← Nat.pow_add, width]
        exact Nat.log2_self_le proper
      rw [Nat.mul_left_comm, Nat.mul_comm den]
      exact (Nat.le_div_iff_mul_le positive).mp floor

/-- Twice the middle between a code and the next, at a place in two binades with one step. -/
theorem middle_of_place (shift place : Nat) (low : shift = 0 ∨ F.binade ≤ place)
    (high : place < 2 * F.binade) :
    (F.quanta (shift * F.binade + place) + F.quanta (shift * F.binade + place + 1)) * den
      = (2 * place + 1) * (den * twoTo shift) := by
  have here := quanta_mul_add shift place low (Nat.le_of_lt high)
  have next := quanta_mul_add shift (place + 1) (low.imp_right Nat.le_succ_of_le) high
  rw [here, Nat.add_assoc, next, ← Nat.add_mul, Nat.mul_assoc, Nat.mul_comm (twoTo shift)]
  congr 1
  omega

/-- Rounding in a format, whole: to the nearest code, a tie to the even one. -/
theorem lt_nearest_iff (fine : 0 < F.fractionBits) (positive : 0 < den) {code : Nat}
    (finite : code < F.infinity) :
    code < F.nearest num den ↔
      (F.quanta code + F.quanta (code + 1)) * den < 2 * num ∨
        (F.quanta code + F.quanta (code + 1)) * den = 2 * num ∧ code % 2 = 1 := by
  obtain ⟨ceiling, floor⟩ := place_of_shift F num positive
  unfold nearest
  dsimp only at ceiling floor ⊢
  generalize (num / den).log2 - F.fractionBits = shift at ceiling floor ⊢
  rw [shiftLeft_eq_mul, Nat.lt_min, and_iff_right finite]
  have wide : 0 < den * twoTo shift := Nat.mul_pos positive (twoTo_pos shift)
  by_cases beneath : shift ≠ 0 ∧ code < shift * F.binade + F.binade
  · -- the quotient lies beyond the next code
    obtain ⟨proper, less⟩ := beneath
    have reached : F.binade * (den * twoTo shift) ≤ num := floor.resolve_left proper
    have carried : F.binade ≤ roundDiv num (den * twoTo shift) :=
      Nat.le_trans ((Nat.le_div_iff_mul_le wide).mpr reached) (div_le_roundDiv _ _)
    have foot : F.quanta (shift * F.binade + F.binade) = F.binade * twoTo shift :=
      quanta_mul_add shift F.binade (.inr (Nat.le_refl _)) (by omega)
    have here : F.quanta code < F.quanta (code + 1) := quanta_lt (Nat.lt_succ_self code)
    have next : F.quanta (code + 1) ≤ F.binade * twoTo shift := foot ▸ quanta_le less
    have twice : (F.quanta code + F.quanta (code + 1)) * den
        < (F.binade * twoTo shift + F.binade * twoTo shift) * den :=
      Nat.mul_lt_mul_of_pos_right (by omega) positive
    have far : (F.binade * twoTo shift + F.binade * twoTo shift) * den
        = 2 * (F.binade * (den * twoTo shift)) := by
      rw [← Nat.two_mul, Nat.mul_assoc, Nat.mul_assoc, Nat.mul_comm den]
    exact iff_of_true (by omega) (.inl (by omega))
  · obtain ⟨place, rfl⟩ : ∃ place, code = shift * F.binade + place := by
      refine Nat.exists_eq_add_of_le ?_
      by_cases lowest : shift = 0
      · rw [lowest, Nat.zero_mul]
        exact Nat.zero_le _
      · have upper : ¬ code < shift * F.binade + F.binade := fun less => beneath ⟨lowest, less⟩
        omega
    have low : shift = 0 ∨ F.binade ≤ place := by omega
    by_cases within : place < 2 * F.binade
    · -- the code and the next have the step of the quotient between them
      have even : shift * F.binade % 2 = 0 := by
        rw [Nat.mul_mod, binade_even fine, Nat.mul_zero, Nat.zero_mod]
      have parity : (shift * F.binade + place) % 2 = place % 2 := by omega
      rw [middle_of_place shift place low within, parity, Nat.add_lt_add_iff_left]
      exact lt_roundDiv_iff wide place
    · -- the code lies beyond the quotient
      have top : F.quanta (shift * F.binade + 2 * F.binade) = 2 * F.binade * twoTo shift :=
        quanta_mul_add shift (2 * F.binade) (.inr (by omega)) (Nat.le_refl _)
      have here : 2 * F.binade * twoTo shift ≤ F.quanta (shift * F.binade + place) :=
        top ▸ quanta_le (by omega)
      have next : 2 * F.binade * twoTo shift ≤ F.quanta (shift * F.binade + place + 1) :=
        top ▸ quanta_le (by omega)
      have twice := Nat.mul_le_mul_right den (Nat.add_le_add here next)
      have far : (2 * F.binade * twoTo shift + 2 * F.binade * twoTo shift) * den
          = 2 * (2 * F.binade * (den * twoTo shift)) := by
        rw [← Nat.two_mul, Nat.mul_assoc, Nat.mul_assoc, Nat.mul_comm den]
      have behind := Nat.mul_le_mul_right (den * twoTo shift) (Nat.le_of_not_lt within)
      have middle : (2 * place + 1) * (den * twoTo shift)
          = 2 * (place * (den * twoTo shift)) + den * twoTo shift := by
        rw [Nat.add_mul, Nat.one_mul, Nat.mul_assoc]
      refine iff_of_false ?_ (by omega)
      rw [Nat.add_lt_add_iff_left, lt_roundDiv_iff wide, middle]
      omega

end Format
end Turtle
