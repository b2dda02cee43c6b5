import Turtle.Number.Basic

/-! What one line of input asks for. -/
namespace Turtle

inductive Command where
  | spawn (name : String)
  /-- Reads the position of an actor into a variable. -/
  | query (into actor : String)
  | move (actor : String) (distance : Single)
  /-- A move whose operand is no finite distance. -/
  | malformedMove (actor operand : String)
  | unrecognized (line : String)
  deriving DecidableEq

end Turtle
