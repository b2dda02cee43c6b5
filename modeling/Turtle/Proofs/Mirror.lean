import Turtle.Actor.Journey
import Turtle.Proofs.Number.Opposite

/-! Journeys whose poses are turned and pushed on the way.
When a journey is over depends on its distance and on the strides alone, wherever it starts and whatever
is done to the pose meanwhile. And a journey of the opposite distance from the opposite position, pushed
the opposite way, stays opposite throughout: no operation on positions looks at signs. -/
namespace Turtle

namespace Vec

/-- The opposite of a vector, but for the signs of zeros. -/
structure Opposes (v w : Vec) : Prop where
  x : v.x.Alike (-w.x)
  y : v.y.Alike (-w.y)
  z : v.z.Alike (-w.z)

variable {v w : Vec}

theorem opposes_neg (v : Vec) : (-v).Opposes v := ⟨.refl _, .refl _, .refl _⟩

theorem Opposes.add_neg (opposes : v.Opposes w) (delta : Vec) : (v + -delta).Opposes (w + delta) where
  x := opposes.x.add_neg (by decide) (by decide) delta.x
  y := opposes.y.add_neg (by decide) (by decide) delta.y
  z := opposes.z.add_neg (by decide) (by decide) delta.z

theorem neg_scale (v : Vec) (s : Single) : -v * s = -(v * s) := by
  change Vec.mk (-v.x * s) (-v.y * s) (-v.z * s) = Vec.mk (-(v.x * s)) (-(v.y * s)) (-(v.z * s))
  simp only [Number.neg_mul]

theorem scale_neg (v : Vec) (s : Single) : v * -s = -(v * s) := by
  change Vec.mk (v.x * -s) (v.y * -s) (v.z * -s) = Vec.mk (-(v.x * s)) (-(v.y * s)) (-(v.z * s))
  simp only [Number.mul_neg]

end Vec

namespace Pose

def mirror (pose : Pose) : Pose := { pose with position := -pose.position }

structure Opposes (a b : Pose) : Prop where
  rotation : a.rotation = b.rotation
  position : a.position.Opposes b.position

theorem opposes_mirror (pose : Pose) : pose.mirror.Opposes pose :=
  ⟨rfl, Vec.opposes_neg pose.position⟩

end Pose

/-- One step of a journey, and what is done to the pose before it. -/
structure Leg where
  turn : Option Rotation
  push : Option Vec
  dt : Single

namespace Leg

def prepare (leg : Leg) (pose : Pose) : Pose :=
  let turned := { pose with rotation := leg.turn.getD pose.rotation }
  leg.push.elim turned turned.translate

def mirror (leg : Leg) : Leg := { leg with push := leg.push.map (- ·) }

theorem opposes_prepare (leg : Leg) {a b : Pose} (opposes : a.Opposes b) :
    (leg.mirror.prepare a).Opposes (leg.prepare b) := by
  obtain ⟨turn, push, dt⟩ := leg
  obtain ⟨rotation, position⟩ := opposes
  have turned : turn.getD a.rotation = turn.getD b.rotation := by rw [rotation]
  cases push with
  | none => exact ⟨turned, position⟩
  | some delta => exact ⟨turned, position.add_neg delta⟩

end Leg

namespace Journey

variable {j k : Journey}

/-- What is left of a journey after a step. -/
def shorten (j : Journey) (dt : Single) : Journey :=
  if j.isOver then j else { j with remaining := j.remaining - j.speed * dt }

/-- One step after the other, with the pose turned and pushed in between. -/
def travel : Journey → Pose → List Leg → Journey × Pose
  | j, pose, [] => (j, pose)
  | j, pose, leg :: legs =>
    let (j, pose) := j.step (leg.prepare pose) leg.dt
    j.travel pose legs

theorem step_of_not_isOver (going : ¬ j.isOver = true) (pose : Pose) (dt : Single) :
    j.step pose dt = ({ j with remaining := j.remaining - j.speed * dt },
      pose.translate (pose.rotation.forward * j.heading * (j.speed * dt))) := by
  rw [step, if_neg going]

/-- What is left does not depend on the pose. -/
theorem step_fst (j : Journey) (pose : Pose) (dt : Single) : (j.step pose dt).1 = j.shorten dt := by
  unfold step shorten
  split <;> rfl

theorem travel_fst (j : Journey) (pose : Pose) (legs : List Leg) :
    (j.travel pose legs).1 = (legs.map Leg.dt).foldl shorten j := by
  induction legs generalizing j pose with
  | nil => rfl
  | cons leg legs ih => rw [travel, ih, step_fst]; rfl

/-- Journeys with the same rest and speed in opposite directions, unless they are over. -/
structure Opposes (j k : Journey) : Prop where
  remaining : j.remaining = k.remaining
  speed : j.speed = k.speed
  heading : k.isOver = true ∨ j.heading = -k.heading

theorem Opposes.isOver_eq (opposes : j.Opposes k) : j.isOver = k.isOver := by
  rw [isOver, isOver, opposes.remaining]

theorem Opposes.status_eq (opposes : j.Opposes k) : j.status = k.status := by
  rw [status, status, opposes.isOver_eq]

/-- Of two opposite distances that are not zero, one is below zero. -/
theorem opposes_ofDistance {distance : Single} (proper : distance ≠ .nan) (speed : Single) :
    (ofDistance (-distance) speed).Opposes (ofDistance distance speed) := by
  refine ⟨distance.abs_neg, rfl, ?_⟩
  cases distance with
  | nan => exact absurd rfl proper
  | signed s a ha =>
    rcases Nat.eq_zero_or_pos a with rfl | positive
    · left
      exact decide_eq_true (Number.signed_le_zero_iff.mpr (.inr rfl))
    · right
      have below (s : Bool) : (.signed s a ha : Single) < 0 ↔ s = true :=
        Number.signed_lt_zero_iff.trans (and_iff_left (Nat.ne_of_gt positive))
      change (if (.signed (!s) a ha : Single) < 0 then (-1 : Single) else 1)
        = -if (.signed s a ha : Single) < 0 then (-1 : Single) else 1
      simp only [below]
      cases s with
      | false => rfl
      | true => exact (Number.neg_neg _).symm

theorem Opposes.step (opposes : j.Opposes k) {a b : Pose} (mirrored : a.Opposes b) (dt : Single) :
    (j.step a dt).1.Opposes (k.step b dt).1 ∧ (j.step a dt).2.Opposes (k.step b dt).2 := by
  by_cases ended : k.isOver = true
  · have too : j.isOver = true := opposes.isOver_eq.trans ended
    rw [step_of_isOver too, step_of_isOver ended]
    exact ⟨opposes, mirrored⟩
  · have too : ¬ j.isOver = true := opposes.isOver_eq ▸ ended
    have heading := opposes.heading.resolve_left ended
    rw [step_of_not_isOver too, step_of_not_isOver ended, opposes.remaining, opposes.speed, heading,
      mirrored.rotation, Vec.scale_neg, Vec.neg_scale]
    exact ⟨⟨rfl, rfl, .inr rfl⟩, mirrored.rotation, mirrored.position.add_neg _⟩

theorem Opposes.travel (opposes : j.Opposes k) {a b : Pose} (mirrored : a.Opposes b)
    (legs : List Leg) :
    (j.travel a (legs.map Leg.mirror)).1.Opposes (k.travel b legs).1 ∧
      (j.travel a (legs.map Leg.mirror)).2.Opposes (k.travel b legs).2 := by
  induction legs generalizing j k a b with
  | nil => exact ⟨opposes, mirrored⟩
  | cons leg legs ih =>
    obtain ⟨still, after⟩ := opposes.step (leg.opposes_prepare mirrored) leg.dt
    exact ih still after

/-- Runs of one distance have the same status and the same rest at every step, whatever their poses. A
run of the opposite distance from the opposite position, pushed the opposite way, has them too, and its
position is opposite at every step. -/
theorem travel_mirror {distance : Single} (proper : distance ≠ .nan) (speed : Single) (start : Pose)
    (legs : List Leg) :
    let run := (ofDistance distance speed).travel start legs
    let mirrored := (ofDistance (-distance) speed).travel start.mirror (legs.map Leg.mirror)
    (mirrored.1.status = run.1.status ∧ mirrored.1.remaining = run.1.remaining ∧
      mirrored.2.Opposes run.2) ∧
    ∀ otherStart others, others.map Leg.dt = legs.map Leg.dt →
      let other := (ofDistance distance speed).travel otherStart others
      other.1.status = run.1.status ∧ other.1.remaining = run.1.remaining := by
  intro run mirrored
  obtain ⟨journeys, poses⟩ :=
    (opposes_ofDistance proper speed).travel start.opposes_mirror legs
  refine ⟨⟨journeys.status_eq, journeys.remaining, poses⟩, ?_⟩
  intro otherStart others same other
  have alike : other.1 = run.1 := by
    change (travel _ _ _).1 = (travel _ _ _).1
    rw [travel_fst, travel_fst, same]
  rw [alike]
  exact ⟨rfl, rfl⟩

/-- Backwards by two, with a turn about the upward axis and a push on the way. -/
theorem two_steps_backwards :
    let distance : Single := -2
    let start : Pose := ⟨⟨1, 0, -3⟩, .identity⟩
    let legs : List Leg := [⟨none, none, 1⟩, ⟨some ⟨0, 1, 0, 0⟩, some ⟨0, 5, 1⟩, 1⟩]
    let run := (ofDistance distance 1).travel start legs
    let mirrored := (ofDistance (-distance) 1).travel start.mirror (legs.map Leg.mirror)
    distance ≠ .nan ∧ run.1.status = .complete ∧ run.2.position = ⟨1, 5, -2⟩ ∧
      mirrored.1.status = .complete ∧ mirrored.2.position.Opposes ⟨1, 5, -2⟩ := by
  intro distance start legs run mirrored
  have proper : distance ≠ .nan := by decide +kernel
  have ended : run.1.status = .complete := by decide +kernel
  have place : run.2.position = ⟨1, 5, -2⟩ := by decide +kernel
  obtain ⟨⟨status, _, poses⟩, _⟩ := travel_mirror proper 1 start legs
  have position := poses.position
  rw [show ((ofDistance distance 1).travel start legs).2.position = ⟨1, 5, -2⟩ from place] at position
  exact ⟨proper, ended, place, status.trans ended, position⟩

end Journey
end Turtle
