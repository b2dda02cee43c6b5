import Turtle.Actor.Basic
import Turtle.Proofs.Number.Unsigned

/-! Journeys as countdowns.
As long as the stride of a tick is the same unsigned number, all that matters of a journey is the
code of what remains of it. -/
namespace Turtle

def Number.code {F : Format} : Number F → Nat
  | .nan => 0
  | .signed _ code _ => code

theorem Number.code_lt_infinity {F : Format} {x : Number F} (finite : x.isFinite = true) :
    x.code < F.infinity := by
  cases x with
  | nan => cases finite
  | signed negative code bounded => exact of_decide_eq_true finite

namespace Journey

variable {j : Journey} {speed dt : Single} {code stride : Nat}

/-- What remains of a journey is a finite number without a minus sign, given by its code. -/
structure Ahead (j : Journey) (speed : Single) (code : Nat) : Prop where
  finite : code < Format.single.infinity
  remaining : j.remaining = .signed false code (Nat.le_of_lt finite)
  speed_eq : j.speed = speed

theorem Ahead.isOver_iff (ahead : j.Ahead speed code) : j.isOver = true ↔ code = 0 := by
  rw [isOver, ahead.remaining, decide_eq_true_iff, Number.signed_le_zero_iff]
  simp only [Bool.false_eq_true, false_or]

/-- One tick of a journey that is not over, by what is left of its code. -/
theorem Ahead.remaining_step (ahead : j.Ahead speed code) {bounded}
    (strides : speed * dt = .signed false stride bounded) (proper : code ≠ 0) (pose : Pose) :
    (j.step pose dt).1.speed = speed ∧
      if Format.single.quanta code ≤ Format.single.quanta stride then
        (j.step pose dt).1.remaining ≤ 0
      else
        (j.step pose dt).1.remaining
          = .nearest false (Format.single.quanta code - Format.single.quanta stride) 1 := by
  have unfinished : ¬ j.isOver = true := fun ended => proper (ahead.isOver_iff.mp ended)
  unfold step
  rw [if_neg unfinished, ahead.speed_eq, strides, ahead.remaining]
  refine ⟨rfl, ?_⟩
  split
  · exact Number.sub_le_zero ahead.finite ‹_›
  · exact Number.sub_of_quanta_lt ahead.finite (Nat.lt_of_not_le ‹_›)

theorem status_of_isOver (ended : j.isOver = true) : j.status = .complete := by
  rw [status, if_pos ended]

/-- A journey ends with the tick whose stride covers what remains. -/
theorem Ahead.step_of_nothing_left (ahead : j.Ahead speed code) {bounded}
    (strides : speed * dt = .signed false stride bounded)
    (nothing : Format.single.left stride code = 0) (pose : Pose) :
    (j.step pose dt).1.status = .complete := by
  refine status_of_isOver ?_
  by_cases zero : code = 0
  · have ended := ahead.isOver_iff.mpr zero
    rw [step_of_isOver ended]
    exact ended
  · have after := (ahead.remaining_step strides zero pose).2
    rw [isOver, decide_eq_true_iff]
    unfold Format.left at nothing
    split at nothing
    · rename_i covered
      rw [if_pos covered] at after
      exact after
    · rename_i uncovered
      rw [if_neg uncovered] at after
      rw [after, Number.nearest, Number.signed_le_zero_iff]
      exact .inr nothing

theorem Ahead.step_of_left (ahead : j.Ahead speed code) {bounded}
    (strides : speed * dt = .signed false stride bounded)
    (more : Format.single.left stride code ≠ 0) (pose : Pose) :
    (j.step pose dt).1.status = .running ∧
      (j.step pose dt).1.Ahead speed (Format.single.left stride code) := by
  have less : Format.single.left stride code ≤ code :=
    Format.left_le (by decide) ahead.finite
  have proper : code ≠ 0 := fun zero => more (Nat.le_zero.mp (zero ▸ less))
  obtain ⟨kept, after⟩ := ahead.remaining_step strides proper pose
  have next : (j.step pose dt).1.Ahead speed (Format.single.left stride code) := by
    refine ⟨Nat.lt_of_le_of_lt less ahead.finite, ?_, kept⟩
    unfold Format.left at more ⊢
    split at more
    · exact absurd rfl more
    · rename_i uncovered
      rw [if_neg uncovered] at after
      simp only [if_neg uncovered]
      exact after
  refine ⟨?_, next⟩
  rw [status, if_neg fun ended => more (next.isOver_iff.mp ended)]

end Journey

namespace Actor

variable {a : Actor} {speed dt : Single} {code stride : Nat}

def Ahead (a : Actor) (speed : Single) (code : Nat) : Prop :=
  ∃ journey, a.journey = some journey ∧ journey.Ahead speed code

theorem ahead_setOff {distance : Single} (finite : distance.isFinite = true) (speed : Single) :
    (a.setOff distance speed).Ahead speed distance.code := by
  refine ⟨_, rfl, Number.code_lt_infinity finite, ?_, rfl⟩
  cases distance with
  | nan => cases finite
  | signed negative code bounded => rfl

theorem Ahead.step_of_nothing_left (ahead : a.Ahead speed code) {bounded}
    (strides : speed * dt = .signed false stride bounded)
    (nothing : Format.single.left stride code = 0) : (a.step dt).2 = .complete := by
  obtain ⟨journey, under, still⟩ := ahead
  have ends := still.step_of_nothing_left strides nothing a.pose
  unfold step
  simp only [under, ends]

theorem Ahead.step_of_left (ahead : a.Ahead speed code) {bounded}
    (strides : speed * dt = .signed false stride bounded)
    (more : Format.single.left stride code ≠ 0) :
    (a.step dt).2 = .running ∧
      (a.step dt).1.Ahead speed (Format.single.left stride code) := by
  obtain ⟨journey, under, still⟩ := ahead
  obtain ⟨goesOn, next⟩ := still.step_of_left strides more a.pose
  unfold step
  simp only [under, goesOn]
  exact ⟨trivial, _, rfl, next⟩

end Actor
end Turtle
