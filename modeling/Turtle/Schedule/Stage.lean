import Turtle.Bindings
import Turtle.Command.Basic
import Turtle.Schedule.Event

/-! The stage: everything a command can read or change.
A command does its work at once, except for a move, which takes its first step at once and is then
under way. -/
namespace Turtle

structure Rules where
  capacity : Nat
  speed : Single
  spawnPoint : Vec
  deriving DecidableEq

namespace Rules

def standard : Rules := ⟨5, 1, .zero⟩

end Rules

structure Stage where
  rules : Rules
  pool : Pool
  actors : Bindings Slot
  positions : Bindings Vec
  deriving DecidableEq

/-- A move that has not completed, by the name it was given and the slot that had the name. -/
structure Underway where
  slot : Slot
  name : String
  deriving DecidableEq

/-- The result of one tick of work: the stage after it, what happened, in order, and the move that
goes on. -/
structure Outcome where
  stage : Stage
  events : List Event
  underway : Option Underway
  deriving DecidableEq

namespace Stage

def ofRules (rules : Rules) : Stage := ⟨rules, .ofCapacity rules.capacity, .empty, .empty⟩

/-- The slot a name is bound to, if it is in use. -/
def slotOf? (s : Stage) (name : String) : Option Slot :=
  (s.actors.find? name).filter fun slot => (s.pool.get? slot).isSome

def position (s : Stage) (name : String) : Except Failure Vec :=
  match (s.actors.find? name).bind s.pool.get? with
  | some actor => .ok actor.position
  | none => .error (.unknownActor name)

def fail (s : Stage) (failure : Failure) : Outcome := ⟨s, [.failed failure], none⟩

def spawn (s : Stage) (name : String) : Outcome :=
  match s.pool.acquire? with
  | none => s.fail (.poolExhausted name s.pool.capacity)
  | some (slot, pool) =>
    let point := s.rules.spawnPoint
    let pool := pool.update slot fun actor => actor.place name ⟨point, .identity⟩
    ⟨{ s with pool := pool, actors := s.actors.bind name slot },
      [.spawned name slot point, .idling name slot], none⟩

def query (s : Stage) (into actor : String) : Outcome :=
  match s.position actor with
  | .ok position =>
    ⟨{ s with positions := s.positions.bind into position }, [.readBack into position], none⟩
  | .error failure => s.fail failure

def resume (s : Stage) (dt : Single) (move : Underway) : Outcome :=
  match s.pool.get? move.slot with
  | none => ⟨s, [], none⟩
  | some actor =>
    let (actor, status) := actor.step dt
    let after := { s with pool := s.pool.set move.slot actor }
    match status with
    | .running => ⟨after, [.moveStepped move.name actor.position], some move⟩
    | .complete => ⟨after, [.moveCompleted move.name actor.position], none⟩

def move (s : Stage) (dt : Single) (name : String) (distance : Single) : Outcome :=
  match s.slotOf? name with
  | none => s.fail (.unknownActor name)
  | some slot =>
    let pool := s.pool.update slot fun actor => actor.setOff distance s.rules.speed
    let outcome := { s with pool := pool }.resume dt ⟨slot, name⟩
    { outcome with events := .moveStarted name distance :: outcome.events }

/-- An unknown actor is reported before a bad operand. -/
def rejectMove (s : Stage) (name operand : String) : Outcome :=
  match s.slotOf? name with
  | none => s.fail (.unknownActor name)
  | some _ => s.fail (.invalidDistance name operand)

def perform (s : Stage) (dt : Single) : Command → Outcome
  | .spawn name => s.spawn name
  | .query into actor => s.query into actor
  | .move actor distance => s.move dt actor distance
  | .malformedMove actor operand => s.rejectMove actor operand
  | .unrecognized line => s.fail (.unrecognized line)

end Stage
end Turtle
