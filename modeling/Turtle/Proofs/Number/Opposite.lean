import Turtle.Proofs.Number.Bounds
import Mathlib.Tactic.SplitIfs

/-! Opposite numbers.
Rounding does not look at signs. So a product changes its sign with each of its factors, and a sum with
both of its terms, but for the sign of a zero: an exact sum of zero has none of its own. -/
namespace Turtle.Number

variable {F : Format} {x y z : Number F}

/-- The same number, but for the sign of zero. -/
def Alike (x y : Number F) : Prop := x = y ∨ x.isZero = true ∧ y.isZero = true

theorem Alike.refl (x : Number F) : x.Alike x := .inl rfl

theorem Alike.symm (alike : x.Alike y) : y.Alike x := by
  rcases alike with rfl | ⟨first, second⟩
  · exact .refl x
  · exact .inr ⟨second, first⟩

theorem Alike.trans (first : x.Alike y) (second : y.Alike z) : x.Alike z := by
  rcases first with rfl | ⟨zero, _⟩
  · exact second
  · rcases second with rfl | ⟨_, also⟩
    · exact .inr ⟨zero, ‹_›⟩
    · exact .inr ⟨zero, also⟩

@[simp] theorem isZero_neg (x : Number F) : (-x).isZero = x.isZero := by
  cases x <;> rfl

@[simp] protected theorem neg_neg (x : Number F) : - -x = x := by
  cases x with
  | nan => rfl
  | signed s a ha =>
    change signed (!!s) a ha = _
    rw [Bool.not_not]

@[simp] protected theorem abs_neg (x : Number F) : (-x).abs = x.abs := by
  cases x <;> rfl

theorem Alike.neg (alike : x.Alike y) : (-x).Alike (-y) := by
  rcases alike with rfl | zeros
  · exact .refl _
  · exact .inr (by simpa using zeros)

/-- Of the signs of the factors, a product sees only whether they differ. -/
theorem mul_of_signs {s t u v : Bool} {a b : Nat} {ha : a ≤ F.infinity} {hb : b ≤ F.infinity}
    (flip : (u != v) = !(s != t)) :
    (signed u a ha * signed v b hb : Number F) = -(signed s a ha * signed t b hb) := by
  change Number.mul _ _ = -Number.mul _ _
  simp only [Number.mul, flip]
  split_ifs <;> rfl

protected theorem neg_mul (x y : Number F) : -x * y = -(x * y) := by
  cases x with
  | nan => rfl
  | signed s a ha =>
    cases y with
    | nan => rfl
    | signed t b hb => exact mul_of_signs (by cases s <;> cases t <;> rfl)

protected theorem mul_neg (x y : Number F) : x * -y = -(x * y) := by
  cases x with
  | nan => rfl
  | signed s a ha =>
    cases y with
    | nan => rfl
    | signed t b hb => exact mul_of_signs (by cases s <;> cases t <;> rfl)

theorem signed_lt_zero_iff {s : Bool} {a : Nat} {ha : a ≤ F.infinity} :
    (signed s a ha : Number F) < 0 ↔ s = true ∧ a ≠ 0 := by
  rw [zero_eq]
  change decide (rank s a < rank false 0) = true ↔ _
  rw [decide_eq_true_iff]
  cases s with
  | false => simp [rank]
  | true => simp only [rank, if_true, Bool.false_eq_true, if_false, true_and]; omega

/-- Whole quanta, rounded. The sign is that of the quanta, if these are not zero. -/
def ofQuanta (negative : Bool) (n : Int) : Number F :=
  nearest (if n = 0 then negative else n < 0) n.natAbs 1

theorem ofQuanta_neg (s t : Bool) (n : Int) :
    (ofQuanta s (-n) : Number F).Alike (-ofQuanta t n) := by
  by_cases zero : n = 0
  · -- The signs of the two zeros are those that are given, and need not differ.
    subst zero
    right
    rw [isZero_neg]
    simp [ofQuanta, nearest_zero, Number.zero, isZero]
  · left
    have proper : ¬ -n = 0 := by omega
    have flip : decide (-n < 0) = !decide (n < 0) := by
      rw [← decide_not, decide_eq_decide]
      omega
    simp only [ofQuanta, if_neg zero, if_neg proper, Int.natAbs_neg, flip]
    rfl

theorem ofQuanta_quanta (fine : 0 < F.fractionBits) (t : Bool) (finite : x.isFinite = true) :
    (ofQuanta t x.quanta).Alike x := by
  cases x with
  | nan => cases finite
  | signed s a ha =>
    have kept := Format.nearest_quanta_one fine ha
    cases a with
    | zero => exact .inr (by cases s <;> simp [ofQuanta, quanta, nearest_zero, Number.zero, isZero])
    | succ a =>
      have positive : 0 < F.quanta (a + 1) := Format.quanta_pos (Nat.succ_pos a)
      have proper : ¬ F.quanta (a + 1) = 0 := Nat.ne_of_gt positive
      left
      cases s <;> simp [ofQuanta, quanta, nearest, kept, proper, positive]

@[simp] theorem quanta_neg (x : Number F) : (-x).quanta = -x.quanta := by
  cases x with
  | nan => rfl
  | signed s a ha =>
    change (signed (!s) a ha).quanta = _
    cases s <;> simp [quanta]

/-- The sum changes its sign with both of its terms, unless it is exactly zero. -/
theorem neg_add_neg (x y : Number F) : (-x + -y).Alike (-(x + y)) := by
  cases x with
  | nan => exact .refl _
  | signed s a ha =>
    cases y with
    | nan => exact .refl _
    | signed t b hb =>
      have flip : ((!s) != !t) = (s != t) := by cases s <;> cases t <;> rfl
      rcases Nat.lt_or_eq_of_le ha with small | rfl
      · rcases Nat.lt_or_eq_of_le hb with less | rfl
        · have sum : (signed s a ha + signed t b hb : Number F)
              = ofQuanta (s && t) ((signed s a ha).quanta + (signed t b hb).quanta) :=
            add_of_finite small less
          have opposite : (-signed s a ha + -signed t b hb : Number F)
              = ofQuanta (!s && !t) ((-signed s a ha).quanta + (-signed t b hb).quanta) :=
            add_of_finite small less
          rw [sum, opposite, quanta_neg, quanta_neg, ← Int.neg_add]
          exact ofQuanta_neg _ _ _
        · left
          change Number.add (signed (!s) a ha) (signed (!t) _ hb) = -Number.add _ _
          simp only [Number.add, if_neg (Nat.ne_of_lt small), if_pos]
          rfl
      · left
        change Number.add (signed (!s) _ ha) (signed (!t) b hb) = -Number.add _ _
        simp only [Number.add, if_pos, flip]
        split <;> rfl

/-- A zero does not count in a sum. -/
theorem zero_add_alike (fine : 0 < F.fractionBits) (proper : 0 < F.infinity) {x : Number F}
    (zero : x.isZero = true) (y : Number F) : (x + y).Alike y := by
  cases x with
  | nan => cases zero
  | signed s a ha =>
    obtain rfl : a = 0 := eq_of_beq zero
    cases y with
    | nan => exact .refl _
    | signed t b hb =>
      rcases Nat.lt_or_eq_of_le hb with less | rfl
      · have sum : (signed s 0 ha + signed t b hb : Number F)
            = ofQuanta (s && t) ((signed s 0 ha).quanta + (signed t b hb).quanta) :=
          add_of_finite proper less
        have none : (signed s 0 ha : Number F).quanta = 0 := by cases s <;> simp [quanta]
        rw [sum, none, Int.zero_add]
        exact ofQuanta_quanta fine _ (decide_eq_true less)
      · left
        change Number.add _ _ = _
        simp only [Number.add, if_neg (Nat.ne_of_lt proper), if_pos]

/-- A sum with the opposite of one term is the opposite sum if the other term is. -/
theorem Alike.add_neg (fine : 0 < F.fractionBits) (proper : 0 < F.infinity) (alike : x.Alike (-y))
    (z : Number F) : (x + -z).Alike (-(y + z)) := by
  rcases alike with rfl | ⟨zero, also⟩
  · exact neg_add_neg y z
  · rw [isZero_neg] at also
    have first := zero_add_alike fine proper zero (-z)
    have second := zero_add_alike fine proper also z
    exact first.trans second.neg.symm

end Turtle.Number
