import Turtle.Decimal.Layout

/-! Triples of single-precision numbers, as positions, displacements and directions.
Every component is computed in the order written, each operation rounded by itself. -/
namespace Turtle

structure Vec where
  x : Single
  y : Single
  z : Single
  deriving DecidableEq

namespace Vec

def zero : Vec := ⟨0, 0, 0⟩

/-- The direction an actor faces before any rotation. -/
def forward : Vec := ⟨0, 0, 1⟩

instance : Inhabited Vec := ⟨zero⟩

protected def add (v w : Vec) : Vec := ⟨v.x + w.x, v.y + w.y, v.z + w.z⟩

protected def sub (v w : Vec) : Vec := ⟨v.x - w.x, v.y - w.y, v.z - w.z⟩

protected def neg (v : Vec) : Vec := ⟨-v.x, -v.y, -v.z⟩

def scale (v : Vec) (s : Single) : Vec := ⟨v.x * s, v.y * s, v.z * s⟩

instance : Add Vec := ⟨Vec.add⟩
instance : Sub Vec := ⟨Vec.sub⟩
instance : Neg Vec := ⟨Vec.neg⟩
instance : HMul Vec Single Vec := ⟨scale⟩

def dot (v w : Vec) : Single := v.x * w.x + v.y * w.y + v.z * w.z

def cross (v w : Vec) : Vec :=
  ⟨v.y * w.z - v.z * w.y, v.z * w.x - v.x * w.z, v.x * w.y - v.y * w.x⟩

def length (v : Vec) : Single := (v.dot v).sqrt

def distance (v w : Vec) : Single := (v - w).length

def isFinite (v : Vec) : Bool := v.x.isFinite && v.y.isFinite && v.z.isFinite

def equals (v w : Vec) : Bool := v.x.equals w.x && v.y.equals w.y && v.z.equals w.z

/-- The form of read-backs: two places each. -/
def text (v : Vec) : String :=
  "(" ++ v.x.hundredths ++ "," ++ v.y.hundredths ++ "," ++ v.z.hundredths ++ ")"

/-- The form in JSON text: an array of shortest decimals. -/
def json (v : Vec) : String :=
  let component (x : Single) := x.json .jsonSingle
  "[" ++ component v.x ++ "," ++ component v.y ++ "," ++ component v.z ++ "]"

end Vec
end Turtle
