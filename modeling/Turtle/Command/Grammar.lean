import Turtle.Command.Basic
import Turtle.Decimal.Numeral

/-! The grammar of command lines, which hold no white space.
A line is tried as a spawn, then as a query, then as a move; the first form that claims it decides,
and a line that none claims is kept whole. -/
namespace Turtle.Command

/-- The text before and after the first occurrence of a token. -/
def cut? (token : List Char) : List Char → Option (List Char × List Char)
  | [] => none
  | c :: rest =>
    if token.isPrefixOf (c :: rest) then some ([], (c :: rest).drop token.length)
    else (cut? token rest).map fun (before, after) => (c :: before, after)

/-- The two sides of a line with exactly one equals sign, neither of them empty. -/
def assignment? (line : List Char) : Option (List Char × List Char) :=
  match cut? ['='] line with
  | some (left, right) =>
    if left = [] ∨ right = [] ∨ '=' ∈ right then none else some (left, right)
  | none => none

def spawn? (line : List Char) : Option Command :=
  if "Turtle()".toList.isSuffixOf line then
    (assignment? line).map fun (name, _) => .spawn (.ofList name)
  else none

/-- The actor of a query is what stands before the first point of the right-hand side. -/
def query? (line : List Char) : Option Command :=
  if ".position()".toList.isSuffixOf line then
    match assignment? line with
    | some (into, right) =>
      match cut? ['.'] right with
      | some (actor, _) =>
        if actor = [] then none else some (.query (.ofList into) (.ofList actor))
      | none => none
    | none => none
  else none

/-- The distance an operand denotes, if it denotes a finite one. -/
def distance? (operand : List Char) : Option Single :=
  (Number.ofText? operand).filter Number.isFinite

/-- The words of a move, in the order in which they are looked for. -/
def verbs : List (List Char) := [".forward(".toList, ".fd(".toList]

def moveBy (actor operand : List Char) : Command :=
  match distance? operand with
  | some distance => .move (.ofList actor) distance
  | none => .malformedMove (.ofList actor) (.ofList operand)

/-- A move closes its parenthesis at the end of the line and is cut at its verb. -/
def move? (line : List Char) : Option Command :=
  if line.getLast? = some ')' then
    (verbs.findSome? fun verb => cut? verb line.dropLast).map fun (actor, operand) =>
      moveBy actor operand
  else none

def ofLine (line : String) : Command :=
  let text := line.toList
  ((spawn? text).orElse fun _ => (query? text).orElse fun _ => move? text).getD
    (.unrecognized line)

end Turtle.Command
