import Turtle.Space.Rotation

/-! A journey: a straight motion of given length, made one step per tick.
A step covers `speed * dt` along the direction faced at that moment, so a turn on the way bends the
path. The last step is not cut short and may pass the end by less than its own length. -/
namespace Turtle

structure Journey where
  remaining : Single
  /-- One, or minus one for a journey backwards. -/
  heading : Single
  speed : Single
  deriving DecidableEq

inductive Status where
  | running
  | complete
  deriving DecidableEq, Repr

namespace Journey

def ofDistance (distance speed : Single) : Journey :=
  ⟨distance.abs, if distance < 0 then -1 else 1, speed⟩

/-- Nothing is left. A journey whose rest is not a number never gets here. -/
def isOver (j : Journey) : Bool := j.remaining ≤ 0

def status (j : Journey) : Status := if j.isOver then .complete else .running

/-- One tick. A journey that is over stays where it is. -/
def step (j : Journey) (pose : Pose) (dt : Single) : Journey × Pose :=
  if j.isOver then (j, pose)
  else
    let stride := j.speed * dt
    let direction := pose.rotation.forward * j.heading
    ({ j with remaining := j.remaining - stride }, pose.translate (direction * stride))

theorem step_of_isOver {j : Journey} (finished : j.isOver = true) (pose : Pose) (dt : Single) :
    j.step pose dt = (j, pose) := by
  simp [step, finished]

end Journey
end Turtle
