import Turtle.Actor.Pool

/-! What commands do, as seen from outside: events, and the failures among them. -/
namespace Turtle

inductive Failure where
  | unrecognized (line : String)
  | invalidDistance (actor operand : String)
  | unknownActor (name : String)
  | poolExhausted (name : String) (capacity : Nat)
  deriving DecidableEq

def Failure.message : Failure → String
  | unrecognized line => "unrecognized command '" ++ line ++ "'"
  | invalidDistance actor operand =>
    "invalid distance '" ++ operand ++ "' for actor '" ++ actor ++ "'"
  | unknownActor name => "unknown actor '" ++ name ++ "'"
  | poolExhausted name capacity =>
    "actor pool exhausted (" ++ toString capacity ++ " slots in use); cannot spawn '" ++ name ++ "'"

inductive Event where
  | spawned (name : String) (slot : Slot) (position : Vec)
  /-- The actor of a slot begins to idle. -/
  | idling (name : String) (slot : Slot)
  | moveStarted (name : String) (distance : Single)
  | moveStepped (name : String) (position : Vec)
  | moveCompleted (name : String) (position : Vec)
  /-- A variable has received a position. -/
  | readBack (into : String) (position : Vec)
  | failed (failure : Failure)
  deriving DecidableEq

/-- The line a user sees: read-backs and failures have one, the rest has none. -/
def Event.consoleLine? : Event → Option String
  | readBack into position => some (into ++ "=" ++ position.text)
  | failed failure => some ("error: " ++ failure.message)
  | _ => none

end Turtle
