import Turtle.Number.Circle
import Turtle.Space.Vec

/-! Rotations as quaternions, and poses. -/
namespace Turtle

structure Rotation where
  x : Single
  y : Single
  z : Single
  w : Single
  deriving DecidableEq

namespace Rotation

def identity : Rotation := ⟨0, 0, 0, 1⟩

/-- The rotation about an axis by an angle in radians. An axis too short to have a direction, or
an angle that is not finite, gives no rotation. -/
def aboutAxis (axis : Vec) (angle : Single) : Rotation :=
  let length := axis.length
  if length ≤ Number.epsilon ∨ ¬angle.isFinite then identity
  else
    let unit := axis * (1 / length)
    let half := angle * Number.ofRatio false 1 2
    ⟨unit.x * half.sin, unit.y * half.sin, unit.z * half.sin, half.cos⟩

/-- The image of a vector: with `q` the vector part and `t = 2 (q × v)`, it is
`v + w t + q × t`. -/
def apply (r : Rotation) (v : Vec) : Vec :=
  let q : Vec := ⟨r.x, r.y, r.z⟩
  let t := q.cross v * (2 : Single)
  v + t * r.w + q.cross t

def forward (r : Rotation) : Vec := r.apply .forward

end Rotation

structure Pose where
  position : Vec
  rotation : Rotation
  deriving DecidableEq

namespace Pose

def origin : Pose := ⟨.zero, .identity⟩

def translate (pose : Pose) (delta : Vec) : Pose := { pose with position := pose.position + delta }

end Pose
end Turtle
