import Turtle.Clock.Pacer
import Turtle.Proofs.Number.Bounds

/-! The length of a tick. Whatever the rate, a tick takes no more than a second, in whole nanoseconds
and in seconds alike. -/
namespace Turtle

theorem roundDiv_le_of_le {num den n : Nat} (positive : 0 < den) (below : num ≤ n * den) :
    roundDiv num den ≤ n := by
  apply Nat.le_of_not_lt
  have middle : (2 * n + 1) * den = 2 * (n * den) + den := by
    rw [Nat.add_mul, Nat.one_mul, Nat.mul_assoc]
  rw [lt_roundDiv_iff positive, middle]
  omega

namespace Number

variable {F : Format} {a b : Nat}

/-- Between zero and one. -/
def InUnit (x : Number F) : Prop :=
  ∃ code bounded, x = signed false code bounded ∧ F.quanta code ≤ F.unit

theorem inUnit_nearest {num den one : Nat} (fine : 0 < F.fractionBits) (positive : 0 < den)
    (holds : F.quanta one = F.unit) (bounded : one ≤ F.infinity) (below : num ≤ F.unit * den) :
    (nearest false num den : Number F).InUnit := by
  refine ⟨_, _, rfl, ?_⟩
  have under := Format.nearest_le_nearest fine positive positive
    (Nat.mul_le_mul_right den (holds ▸ below))
  rw [Format.nearest_quanta fine positive bounded] at under
  exact holds ▸ Format.quanta_le under

/-- A quotient by a greater number. -/
theorem inUnit_div {one : Nat} (fine : 0 < F.fractionBits) (holds : F.quanta one = F.unit)
    (bounded : one ≤ F.infinity) {ha : a ≤ F.infinity} {hb : b ≤ F.infinity} (finite : a < F.infinity)
    (proper : b ≠ 0) (less : a ≤ b) : (signed false a ha / signed false b hb : Number F).InUnit := by
  rcases Nat.lt_or_eq_of_le hb with small | rfl
  · rw [div_of_finite finite small proper]
    have positive : 0 < F.quanta b := Format.quanta_pos (Nat.pos_of_ne_zero proper)
    apply inUnit_nearest fine positive holds bounded
    rw [Nat.mul_comm]
    exact Nat.mul_le_mul_left _ (Format.quanta_le less)
  · refine ⟨0, Nat.zero_le _, ?_, by simp⟩
    change Number.div _ _ = _
    simp [Number.div, Nat.ne_of_lt finite, zero]

theorem single_one : Format.single.quanta 0x3F800000 = Format.single.unit := by decide +kernel

theorem double_one : Format.double.quanta 0x3FF0000000000000 = Format.double.unit := by
  decide +kernel

theorem InUnit.zero_add (fine : 0 < F.fractionBits) (large : F.unit < F.quanta F.infinity)
    {x : Number F} (fraction : x.InUnit) : zero false + x = x := by
  obtain ⟨code, bounded, rfl, small⟩ := fraction
  have finite : code < F.infinity := Format.lt_of_quanta_lt (Nat.lt_of_le_of_lt small large)
  have origin : 0 < F.infinity := Nat.zero_lt_of_lt finite
  have kept := Format.nearest_quanta_one fine bounded
  apply (add_of_finite origin finite).trans
  simp [quanta, nearest, kept]

end Number

namespace Span

theorem unsigned_seconds (a : Span) : a.seconds.Unsigned := by
  have rest : (Number.ofNat (a % second) / Number.ofNat second : Single).Unsigned :=
    (Number.unsigned_ofNat _).div (Number.unsigned_ofNat _) (by decide +kernel) (by decide +kernel)
  exact (Number.unsigned_ofNat _).add rest

theorem inUnit_seconds {a : Span} (short : a ≤ second) : a.seconds.InUnit := by
  rcases Nat.lt_or_eq_of_le short with less | rfl
  · have none : a / second = 0 := Nat.div_eq_of_lt less
    have all : a % second = a := Nat.mod_eq_of_lt less
    have order : Format.single.nearest (a * Format.single.unit) 1
        ≤ Format.single.nearest (second * Format.single.unit) 1 :=
      Format.nearest_whole_le_nearest (by decide) short
    have fraction : (Number.ofNat a / Number.ofNat second : Single).InUnit :=
      Number.inUnit_div (by decide) Number.single_one (by decide)
        (Nat.lt_of_le_of_lt order (by decide +kernel)) (by decide +kernel) order
    have start : (Number.ofNat 0 : Single) = Number.zero false := by decide +kernel
    unfold seconds
    rw [none, all, start, fraction.zero_add (by decide) (by decide +kernel)]
    exact fraction
  · exact ⟨0x3F800000, by decide, by decide +kernel, Nat.le_of_eq Number.single_one⟩

end Span

theorem Number.double_whole_pos {n : Nat} (proper : 0 < n) :
    0 < Format.double.nearest (n * Format.double.unit) 1 :=
  Nat.lt_of_lt_of_le (by decide +kernel) (Format.nearest_whole_le_nearest (by decide) proper)

/-- One divided by a whole number. -/
theorem Number.inUnit_inverse {n : Nat} (proper : 0 < n) : (1 / ofNat n : Double).InUnit :=
  inUnit_div (by decide) double_one (by decide) (by decide +kernel)
    (Nat.ne_of_gt (double_whole_pos proper)) (Format.nearest_whole_le_nearest (by decide) proper)

theorem Pace.tickLength_le_second (p : Pace) : p.tickLength ≤ Span.second := by
  obtain ⟨code, bounded, same, small⟩ :=
    Number.inUnit_inverse (Nat.lt_of_lt_of_le Nat.one_pos (Nat.le_max_left 1 p.rate))
  unfold tickLength Span.ofSeconds
  apply roundDiv_le_of_le (Format.unit_pos _)
  rw [same, Nat.mul_comm Span.second]
  exact Nat.mul_le_mul_right _ small

theorem Pacer.inUnit_dt (p : Pace) : (Pacer.ofPace p).dt.InUnit := by
  simp only [dt, ofPace]
  exact Span.inUnit_seconds p.tickLength_le_second

end Turtle
