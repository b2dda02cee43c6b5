import Turtle.Number.Basic
import Turtle.Proofs.Number.Countdown

/-! Numbers without a minus sign: what they are closed under, and what one of them leaves when it is
taken from another. -/
namespace Turtle.Number

variable {F : Format} {x y : Number F} {a b : Nat}

/-- Not `nan`, and without a minus sign. Zero and infinity are meant too. -/
def Unsigned (x : Number F) : Prop := ∃ code bounded, x = .signed false code bounded

/-- The sum of finite numbers is exact before it is rounded. -/
theorem add_of_finite {s t : Bool} {ha : a ≤ F.infinity} {hb : b ≤ F.infinity}
    (first : a < F.infinity) (second : b < F.infinity) :
    (signed s a ha + signed t b hb : Number F) =
      let sum := (signed s a ha).quanta + (signed t b hb).quanta
      nearest (if sum = 0 then s && t else sum < 0) sum.natAbs 1 := by
  change Number.add (signed s a ha) (signed t b hb) = _
  unfold Number.add
  dsimp only
  rw [if_neg (Nat.ne_of_lt first), if_neg (Nat.ne_of_lt second)]

theorem unsigned_nearest (num den : Nat) : (nearest false num den : Number F).Unsigned :=
  ⟨_, _, rfl⟩

theorem unsigned_ofNat (n : Nat) : (ofNat n : Number F).Unsigned := unsigned_nearest _ _

theorem Unsigned.add (first : x.Unsigned) (second : y.Unsigned) : (x + y).Unsigned := by
  obtain ⟨a, ha, rfl⟩ := first
  obtain ⟨b, hb, rfl⟩ := second
  rcases Nat.lt_or_eq_of_le ha with small | rfl
  · rcases Nat.lt_or_eq_of_le hb with less | rfl
    · have above : ¬ (F.quanta a : Int) + F.quanta b < 0 := by omega
      rw [add_of_finite small less]
      simp only [quanta, Bool.false_eq_true, if_false, Bool.and_self, above, decide_false, ite_self]
      exact unsigned_nearest _ _
    · refine ⟨F.infinity, hb, ?_⟩
      change Number.add _ _ = _
      simp only [Number.add, if_neg (Nat.ne_of_lt small), if_pos]
  · refine ⟨F.infinity, ha, ?_⟩
    change Number.add _ _ = _
    simp only [Number.add, bne_self_eq_false, Bool.and_false, Bool.false_eq_true, if_false, if_true]

theorem Unsigned.mul (first : x.Unsigned) (second : y.Unsigned) (finite : x.isFinite = true)
    (proper : x.isZero = false) : (x * y).Unsigned := by
  obtain ⟨a, ha, rfl⟩ := first
  obtain ⟨b, hb, rfl⟩ := second
  have small : a ≠ F.infinity := Nat.ne_of_lt (of_decide_eq_true finite)
  have nonzero : a ≠ 0 := ne_of_beq_false proper
  change (Number.mul _ _).Unsigned
  simp only [Number.mul, if_neg small, if_neg nonzero, bne_self_eq_false]
  split
  · exact ⟨_, _, rfl⟩
  · exact unsigned_nearest _ _

theorem Unsigned.div (first : x.Unsigned) (second : y.Unsigned) (finite : y.isFinite = true)
    (proper : y.isZero = false) : (x / y).Unsigned := by
  obtain ⟨a, ha, rfl⟩ := first
  obtain ⟨b, hb, rfl⟩ := second
  have small : b ≠ F.infinity := Nat.ne_of_lt (of_decide_eq_true finite)
  have nonzero : b ≠ 0 := ne_of_beq_false proper
  change (Number.div _ _).Unsigned
  simp only [Number.div, if_neg small, if_neg nonzero, bne_self_eq_false]
  split
  · exact ⟨_, _, rfl⟩
  · exact unsigned_nearest _ _

theorem nearest_zero (negative : Bool) : (nearest negative 0 1 : Number F) = zero negative := by
  have origin : F.nearest 0 1 = 0 := by
    simp only [Format.nearest, Nat.zero_div, Nat.log2_zero, Nat.zero_sub, Nat.zero_mul,
      Nat.shiftLeft_zero, roundDiv_one, Nat.add_zero, Nat.min_zero]
  unfold nearest zero
  simp only [origin]

theorem zero_eq : (0 : Number F) = zero false := by
  change nearest false (0 * F.unit) 1 = _
  rw [Nat.zero_mul, nearest_zero]

theorem signed_le_zero_iff {s : Bool} {ha : a ≤ F.infinity} :
    (signed s a ha : Number F) ≤ 0 ↔ s = true ∨ a = 0 := by
  rw [zero_eq]
  change decide (rank s a ≤ rank false 0) = true ↔ _
  rw [decide_eq_true_iff]
  cases s with
  | false => simp only [rank, Bool.false_eq_true, if_false, false_or]; omega
  | true => simp only [rank, if_true, Bool.false_eq_true, if_false, true_or, iff_true]; omega

theorem pos_iff_not_le_zero (finite : x.isFinite = true) : 0 < x ↔ ¬x ≤ 0 := by
  cases x with
  | nan => cases finite
  | signed s a ha =>
    rw [zero_eq]
    change decide (rank false 0 < rank s a) = true ↔ ¬decide (rank s a ≤ rank false 0) = true
    simp only [decide_eq_true_iff, Int.not_le]

theorem unsigned_lt_iff {ha : a ≤ F.infinity} {hb : b ≤ F.infinity} :
    (signed false a ha : Number F) < signed false b hb ↔ a < b := by
  change decide ((a : Int) < b) = true ↔ _
  rw [decide_eq_true_iff, Int.ofNat_lt]

theorem unsigned_le_iff {ha : a ≤ F.infinity} {hb : b ≤ F.infinity} :
    (signed false a ha : Number F) ≤ signed false b hb ↔ a ≤ b := by
  change decide ((a : Int) ≤ b) = true ↔ _
  rw [decide_eq_true_iff, Int.ofNat_le]

theorem zero_le_unsigned {ha : a ≤ F.infinity} : (0 : Number F) ≤ signed false a ha := by
  rw [zero_eq]
  exact decide_eq_true (Int.natCast_nonneg a)

theorem epsilon_eq : (epsilon : Single) = .signed false 0x34000000 (by decide) := by
  decide

theorem sub_of_quanta_lt {ha : a ≤ F.infinity} {hb : b ≤ F.infinity} (finite : a < F.infinity)
    (less : F.quanta b < F.quanta a) :
    (signed false a ha - signed false b hb : Number F)
      = nearest false (F.quanta a - F.quanta b) 1 := by
  have small : b < F.infinity := Nat.lt_trans (Format.lt_of_quanta_lt less) finite
  change signed false a ha + signed true b hb = _
  rw [add_of_finite finite small]
  have positive : ¬ (F.quanta a : Int) + -(F.quanta b : Int) = 0 := by omega
  have above : ¬ (F.quanta a : Int) + -(F.quanta b : Int) < 0 := by omega
  have difference : ((F.quanta a : Int) + -(F.quanta b : Int)).natAbs
      = F.quanta a - F.quanta b := by omega
  simp only [quanta, Bool.false_eq_true, if_false, if_true, if_neg positive, above, decide_false,
    difference]

theorem sub_le_zero {ha : a ≤ F.infinity} {hb : b ≤ F.infinity} (finite : a < F.infinity)
    (covered : F.quanta a ≤ F.quanta b) :
    (signed false a ha - signed false b hb : Number F) ≤ 0 := by
  change signed false a ha + signed true b hb ≤ 0
  rcases Nat.lt_or_eq_of_le hb with small | rfl
  · rw [add_of_finite finite small]
    simp only [quanta, Bool.false_eq_true, if_false, if_true, Bool.and_true]
    rcases Nat.lt_or_eq_of_le covered with more | same
    · have positive : ¬ (F.quanta a : Int) + -(F.quanta b : Int) = 0 := by omega
      have below : (F.quanta a : Int) + -(F.quanta b : Int) < 0 := by omega
      simp only [if_neg positive, below, decide_true]
      exact signed_le_zero_iff.mpr (.inl rfl)
    · have nothing : (F.quanta a : Int) + -(F.quanta b : Int) = 0 := by omega
      simp only [nothing, if_true, Int.natAbs_zero, nearest_zero]
      exact signed_le_zero_iff.mpr (.inr rfl)
  · have taken : (signed false a ha + signed true F.infinity hb : Number F)
        = signed true F.infinity hb := by
      change Number.add _ _ = _
      simp only [Number.add, if_neg (Nat.ne_of_lt finite), if_true]
    rw [taken]
    exact signed_le_zero_iff.mpr (.inl rfl)

end Turtle.Number
