import Turtle.Schedule.Scheduler
import Turtle.Text.Utf8

/-! Lines of input, as bytes come in.
A line ends with its line feed. Since white space is taken out of every line, line feeds and
carriage returns need no care of their own, and a line of nothing else is passed over. -/
namespace Turtle.Source

def lineFeed : UInt8 := 10

/-- Puts a byte in front of a text cut into lines. -/
def prepend (b : UInt8) (lines : List Text.Bytes) : List Text.Bytes :=
  if b = lineFeed then [b] :: lines
  else match lines with
    | [] => [[b]]
    | line :: more => (b :: line) :: more

def lines (bytes : Text.Bytes) : List Text.Bytes := bytes.foldr prepend []

def compact? (raw : String) : Option String :=
  let text := Text.compact raw.toList
  if text = [] then none else some (.ofList text)

/-- What a source came to: lines submitted, whether all of it was text, and the scheduler they went
to. -/
structure Intake where
  submitted : Nat
  wasText : Bool
  scheduler : Scheduler

/-- Submits line after line, up to the first that is not UTF-8. -/
def submitLines : List Text.Bytes → Nat → Scheduler → Intake
  | [], count, s => ⟨count, true, s⟩
  | line :: rest, count, s =>
    match Text.decode? line with
    | none => ⟨count, false, s⟩
    | some text =>
      match compact? (.ofList text) with
      | none => submitLines rest count s
      | some command =>
        let (accepted, s) := s.submit command
        submitLines rest (if accepted then count + 1 else count) s

def pump (bytes : Text.Bytes) (s : Scheduler) : Intake := submitLines (lines bytes) 0 s

end Turtle.Source
