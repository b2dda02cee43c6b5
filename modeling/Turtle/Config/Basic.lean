import Turtle.Clock.Pacer

/-! The configuration of a session, field by field. -/
namespace Turtle

structure Config where
  poolCapacity : Nat
  moveSpeed : Single
  spawnPosition : Vec
  targetRate : Nat
  maxFrameMillis : Nat
  maxTicksPerFrame : Nat
  reportMillis : Nat
  deriving DecidableEq

namespace Config

def standard : Config :=
  { poolCapacity := Rules.standard.capacity
    moveSpeed := Rules.standard.speed
    spawnPosition := Rules.standard.spawnPoint
    targetRate := Pace.standard.rate
    maxFrameMillis := 250
    maxTicksPerFrame := Pace.standard.maxTicks
    reportMillis := 1000 }

def rules (c : Config) : Rules := ⟨c.poolCapacity, c.moveSpeed, c.spawnPosition⟩

def pace (c : Config) : Pace :=
  ⟨c.targetRate, .ofMillis c.maxFrameMillis, c.maxTicksPerFrame, .ofMillis c.reportMillis⟩

inductive Field where
  | poolCapacity
  | moveSpeed
  | spawnPosition
  | targetRate
  | maxFrameMillis
  | maxTicksPerFrame
  | reportMillis
  deriving DecidableEq, Repr

namespace Field

/-- All fields, in the order in which an array gives their values. -/
def all : List Field :=
  [poolCapacity, moveSpeed, spawnPosition, targetRate, maxFrameMillis, maxTicksPerFrame,
    reportMillis]

def name : Field → String
  | poolCapacity => "pool_capacity"
  | moveSpeed => "move_speed"
  | spawnPosition => "spawn_position"
  | targetRate => "target_tps"
  | maxFrameMillis => "max_frame_delta_ms"
  | maxTicksPerFrame => "max_ticks_per_frame"
  | reportMillis => "metrics_log_interval_ms"

def ofName? (text : String) : Option Field := all.find? fun field => field.name = text

end Field

inductive Assignment where
  | poolCapacity (n : Nat)
  | moveSpeed (speed : Single)
  | spawnPosition (position : Vec)
  | targetRate (n : Nat)
  | maxFrameMillis (n : Nat)
  | maxTicksPerFrame (n : Nat)
  | reportMillis (n : Nat)
  deriving DecidableEq

def Assignment.field : Assignment → Field
  | poolCapacity _ => .poolCapacity
  | moveSpeed _ => .moveSpeed
  | spawnPosition _ => .spawnPosition
  | targetRate _ => .targetRate
  | maxFrameMillis _ => .maxFrameMillis
  | maxTicksPerFrame _ => .maxTicksPerFrame
  | reportMillis _ => .reportMillis

def assign (c : Config) : Assignment → Config
  | .poolCapacity n => { c with poolCapacity := n }
  | .moveSpeed speed => { c with moveSpeed := speed }
  | .spawnPosition position => { c with spawnPosition := position }
  | .targetRate n => { c with targetRate := n }
  | .maxFrameMillis n => { c with maxFrameMillis := n }
  | .maxTicksPerFrame n => { c with maxTicksPerFrame := n }
  | .reportMillis n => { c with reportMillis := n }

def assignAll (c : Config) (assignments : List Assignment) : Config := assignments.foldl assign c

/-- A value that no session can run with. -/
inductive Invalid where
  | poolCapacity
  | moveSpeed (speed : Single)
  | spawnPosition
  | targetRate
  deriving DecidableEq

namespace Invalid

def field : Invalid → Field
  | poolCapacity => .poolCapacity
  | moveSpeed _ => .moveSpeed
  | spawnPosition => .spawnPosition
  | targetRate => .targetRate

def reason : Invalid → String
  | poolCapacity => "must be at least 1"
  | moveSpeed speed => "must be a positive finite number, got " ++ speed.written .plain
  | spawnPosition => "components must be finite"
  | targetRate => "must be at least 1"

end Invalid

/-- The first value that no session can run with, in the order of the fields. -/
def invalid? (c : Config) : Option Invalid :=
  if c.poolCapacity = 0 then some .poolCapacity
  else if ¬c.moveSpeed.isFinite ∨ c.moveSpeed ≤ 0 then some (.moveSpeed c.moveSpeed)
  else if ¬c.spawnPosition.isFinite then some .spawnPosition
  else if c.targetRate = 0 then some .targetRate
  else none

end Config
end Turtle
