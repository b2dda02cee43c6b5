import Turtle.Actor.Journey

/-! Actors: named poses that may be on a journey. -/
namespace Turtle

structure Actor where
  name : String
  pose : Pose
  active : Bool
  journey : Option Journey
  deriving DecidableEq

namespace Actor

def blank : Actor := ⟨"", .origin, false, none⟩

def position (a : Actor) : Vec := a.pose.position

def isMoving (a : Actor) : Bool := a.journey.isSome

/-- The actor under a new name and in a new pose, at rest. -/
def place (a : Actor) (name : String) (pose : Pose) : Actor :=
  { a with name := name, pose := pose, journey := none }

def face (a : Actor) (rotation : Rotation) : Actor :=
  { a with pose := { a.pose with rotation := rotation } }

/-- Sets off on a journey, in place of the one under way. -/
def setOff (a : Actor) (distance speed : Single) : Actor :=
  { a with journey := some (.ofDistance distance speed) }

def activate (a : Actor) : Actor := { a with active := true }

def retire (a : Actor) : Actor := { a with active := false, journey := none }

/-- One tick, with the status it ends in. An actor at rest has nothing to complete. -/
def step (a : Actor) (dt : Single) : Actor × Status :=
  match a.journey with
  | none => (a, .complete)
  | some journey =>
    let (journey, pose) := journey.step a.pose dt
    match journey.status with
    | .running => ({ a with pose := pose, journey := some journey }, .running)
    | .complete => ({ a with pose := pose, journey := none }, .complete)

theorem step_of_rest {a : Actor} (rest : a.journey = none) (dt : Single) :
    a.step dt = (a, .complete) := by
  simp [step, rest]

end Actor
end Turtle
