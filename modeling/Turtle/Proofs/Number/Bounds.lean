import Turtle.Proofs.Number.Unsigned

/-! Rounding keeps the order of quotients and leaves alone what a format holds exactly.
So a product with a factor of at most one is no greater than the other factor, and a sum with zero is
the other term. -/
namespace Turtle

namespace Format

variable {F : Format} {num den code : Nat}

theorem nearest_le_nearest (fine : 0 < F.fractionBits) (positive : 0 < den) {num' den' : Nat}
    (positive' : 0 < den') (below : num * den' ≤ num' * den) :
    F.nearest num den ≤ F.nearest num' den' := by
  apply Nat.le_of_not_lt
  intro above
  have finite : F.nearest num' den' < F.infinity := Nat.lt_of_lt_of_le above (F.nearest_le num den)
  have passed := (lt_nearest_iff fine positive finite).mp above
  apply Nat.lt_irrefl (F.nearest num' den')
  apply (lt_nearest_iff fine positive' finite).mpr
  generalize F.quanta (F.nearest num' den') + F.quanta (F.nearest num' den' + 1) = middle at passed ⊢
  -- both quotients are compared with the middle by cross products
  have scaled : 2 * num * den' ≤ 2 * num' * den := by
    simpa only [Nat.mul_assoc] using Nat.mul_le_mul_left 2 below
  have swap : middle * den * den' = middle * den' * den := Nat.mul_right_comm _ _ _
  rcases passed with past | ⟨tie, odd⟩
  · left
    apply Nat.lt_of_mul_lt_mul_right (a := den)
    calc middle * den' * den = middle * den * den' := swap.symm
      _ < 2 * num * den' := Nat.mul_lt_mul_of_pos_right past positive'
      _ ≤ 2 * num' * den := scaled
  · have reached : middle * den' ≤ 2 * num' := by
      apply Nat.le_of_mul_le_mul_right (c := den) _ positive
      rwa [← swap, tie]
    rcases Nat.lt_or_eq_of_le reached with past | same
    · exact .inl past
    · exact .inr ⟨same, odd⟩

theorem nearest_whole_le_nearest (fine : 0 < F.fractionBits) {m n : Nat} (below : m ≤ n) :
    F.nearest (m * F.unit) 1 ≤ F.nearest (n * F.unit) 1 :=
  nearest_le_nearest fine Nat.one_pos Nat.one_pos
    (Nat.mul_le_mul_right _ (Nat.mul_le_mul_right _ below))

theorem nearest_quanta (fine : 0 < F.fractionBits) (positive : 0 < den)
    (bounded : code ≤ F.infinity) : F.nearest (F.quanta code * den) den = code := by
  have swap (a b : Nat) : (a + b) * den = a * den + b * den := Nat.add_mul _ _ _
  apply Nat.le_antisymm
  · rcases Nat.lt_or_eq_of_le bounded with finite | rfl
    · apply Nat.le_of_not_lt
      have wider := Nat.mul_lt_mul_of_pos_right (quanta_lt (F := F) (Nat.lt_add_one code)) positive
      rw [lt_nearest_iff fine positive finite, swap]
      omega
    · exact F.nearest_le _ _
  · cases code with
    | zero => exact Nat.zero_le _
    | succ code =>
      have wider := Nat.mul_lt_mul_of_pos_right (quanta_lt (F := F) (Nat.lt_add_one code)) positive
      apply (lt_nearest_iff fine positive bounded).mpr
      rw [swap]
      omega

theorem nearest_mul_mul (fine : 0 < F.fractionBits) (positive : 0 < den) {scale : Nat}
    (proper : 0 < scale) : F.nearest (num * scale) (den * scale) = F.nearest num den := by
  have same : num * scale * den = num * (den * scale) := by
    rw [Nat.mul_assoc, Nat.mul_comm scale]
  apply Nat.le_antisymm
  · exact nearest_le_nearest fine (Nat.mul_pos positive proper) positive (Nat.le_of_eq same)
  · exact nearest_le_nearest fine positive (Nat.mul_pos positive proper) (Nat.le_of_eq same.symm)

theorem nearest_quanta_one (fine : 0 < F.fractionBits) (bounded : code ≤ F.infinity) :
    F.nearest (F.quanta code) 1 = code := by
  simpa using nearest_quanta fine Nat.one_pos bounded

end Format

namespace Number

variable {F : Format} {a b : Nat} {s t : Bool}

theorem mul_of_finite {ha : a ≤ F.infinity} {hb : b ≤ F.infinity} (first : a < F.infinity)
    (second : b < F.infinity) :
    (signed s a ha * signed t b hb : Number F)
      = nearest (s != t) (F.quanta a * F.quanta b) F.unit := by
  change Number.mul _ _ = _
  simp only [Number.mul, if_neg (Nat.ne_of_lt first), if_neg (Nat.ne_of_lt second)]

theorem div_of_finite {ha : a ≤ F.infinity} {hb : b ≤ F.infinity} (first : a < F.infinity)
    (second : b < F.infinity) (proper : b ≠ 0) :
    (signed s a ha / signed t b hb : Number F)
      = nearest (s != t) (F.quanta a * F.unit) (F.quanta b) := by
  change Number.div _ _ = _
  simp only [Number.div, if_neg (Nat.ne_of_lt first), if_neg (Nat.ne_of_lt second), if_neg proper]

theorem equals_iff {ha : a ≤ F.infinity} {hb : b ≤ F.infinity} :
    (signed s a ha).equals (signed t b hb) = true ↔ rank s a = rank t b := by
  simp only [equals, atMost, Bool.and_eq_true, decide_eq_true_iff]
  omega

theorem equals_self (x : Number F) (proper : x ≠ nan) : x.equals x = true := by
  cases x with
  | nan => exact absurd rfl proper
  | signed s a ha => exact equals_iff.mpr rfl

theorem equals_trans {x y z : Number F} (first : x.equals y = true) (second : y.equals z = true) :
    x.equals z = true := by
  cases x <;> cases y <;> cases z <;> first
    | exact absurd first Bool.false_ne_true
    | exact absurd second Bool.false_ne_true
    | exact equals_iff.mpr ((equals_iff.mp first).trans (equals_iff.mp second))

theorem isFinite_of_equals {x y : Number F} (same : x.equals y = true) (finite : y.isFinite = true) :
    x.isFinite = true := by
  cases x with
  | nan => cases same
  | signed s a ha =>
    cases y with
    | nan => cases finite
    | signed t b hb =>
      have place := equals_iff.mp same
      have small : b < F.infinity := of_decide_eq_true finite
      have less : a < F.infinity := by
        cases s <;> cases t <;> simp [rank] at place <;> omega
      exact decide_eq_true less

theorem natAbs_quanta_signed {ha : a ≤ F.infinity} :
    (signed s a ha : Number F).quanta.natAbs = F.quanta a := by
  cases s <;> simp [quanta]

theorem add_zero_equals (fine : 0 < F.fractionBits) {x : Number F} (finite : x.isFinite = true)
    (t : Bool) : (x + zero t).equals x = true := by
  cases x with
  | nan => cases finite
  | signed s a ha =>
    have small : a < F.infinity := of_decide_eq_true finite
    have origin : 0 < F.infinity := Nat.zero_lt_of_lt small
    have kept := Format.nearest_quanta_one fine ha
    have still (hb) : (signed t 0 hb : Number F).quanta = 0 := by cases t <;> simp [quanta]
    have moved : (signed s a ha + zero t : Number F)
        = nearest (if (signed s a ha).quanta = 0 then s && t else (signed s a ha).quanta < 0)
            (signed s a ha).quanta.natAbs 1 := by
      apply (add_of_finite small origin).trans
      simp only [still, Int.add_zero]
    rw [moved]
    simp only [nearest, natAbs_quanta_signed, kept, equals_iff]
    cases a with
    | zero => simp [rank, quanta]
    | succ a =>
      have positive : 0 < F.quanta (a + 1) := Format.quanta_pos (Nat.succ_pos a)
      have proper : ¬ F.quanta (a + 1) = 0 := Nat.ne_of_gt positive
      cases s with
      | false =>
        have up : ¬ (F.quanta (a + 1) : Int) < 0 := by omega
        simp [quanta, proper, up]
      | true =>
        simp [quanta, proper, positive]

theorem add_ne_nan {x y : Number F} (proper : x ≠ nan) (finite : y.isFinite = true) :
    x + y ≠ nan := by
  cases x with
  | nan => exact absurd rfl proper
  | signed s a ha =>
    cases y with
    | nan => cases finite
    | signed t b hb =>
      have small : b < F.infinity := of_decide_eq_true finite
      change Number.add _ _ ≠ _
      simp only [Number.add, Nat.ne_of_lt small, decide_false,
        Bool.false_and, Bool.false_eq_true, if_false]
      split <;> simp [nearest]

/-- A factor of at most one leaves a finite number finite. -/
theorem mul_isFinite (fine : 0 < F.fractionBits) {ha : a ≤ F.infinity} {hb : b ≤ F.infinity}
    (first : a < F.infinity) (second : b < F.infinity) (small : F.quanta b ≤ F.unit) :
    (signed s a ha * signed t b hb : Number F).isFinite = true := by
  rw [mul_of_finite first second]
  apply decide_eq_true
  have fits : F.nearest (F.quanta a * F.quanta b) F.unit
      ≤ F.nearest (F.quanta a * F.unit) F.unit :=
    Format.nearest_le_nearest fine F.unit_pos F.unit_pos
      (Nat.mul_le_mul_right _ (Nat.mul_le_mul_left _ small))
  rw [Format.nearest_quanta fine F.unit_pos ha] at fits
  exact Nat.lt_of_le_of_lt fits first

end Number
end Turtle
