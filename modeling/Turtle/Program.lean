import Turtle.Config.Load
import Turtle.Session
import Turtle.Source

/-! The program: reads its configuration and its input, carries the input out, and prints what a
user should see. -/
namespace Turtle

/-- What a program is called with: the name it is called by, and its arguments. These are bytes, and
need not be text. -/
structure Arguments where
  name : Text.Bytes := []
  values : List Text.Bytes
  deriving DecidableEq, Repr

namespace Arguments

def ofTexts (texts : List String) : Arguments :=
  { values := texts.map fun text => Text.encode text.toList }

instance : Coe (List String) Arguments := ⟨ofTexts⟩

end Arguments

structure Host where
  arguments : Arguments
  environment : Environment
  files : Files
  input : Text.Bytes

/-- What commands are read from. -/
inductive Origin where
  | input
  | path (path : String)
  deriving DecidableEq, Repr

/-- Why a program comes to no session. -/
inductive Halt where
  | misconfigured (fault : Config.LoadFault)
  /-- An argument that is needed, or the program's name, is not UTF-8. -/
  | notText (argument : Text.Bytes)
  | poolTooLarge (capacity : Nat)
  | unopened (path : String) (fault : PathFault)
  deriving DecidableEq

/-- A program reports a configuration or a source that is not to be had. Over an argument that is
not text, and over a pool that no memory can hold, it crashes. -/
def Halt.code : Halt → Nat
  | misconfigured _ | unopened _ _ => 1
  | notText _ | poolTooLarge _ => 101

structure Finish where
  code : Nat
  output : String
  deriving DecidableEq, Repr

namespace Program

def textOf (argument : Text.Bytes) : Except Halt (List Char) :=
  match Text.decode? argument with
  | some text => .ok text
  | none => .error (.notText argument)

/-- The file named by the first argument, or the standard input if there is none or it is a dash. The
program's name is passed over, and further arguments are not looked at. -/
def origin (arguments : Arguments) : Except Halt Origin := do
  let _ ← textOf arguments.name
  match arguments.values with
  | [] => return .input
  | first :: _ =>
    let text ← textOf first
    return if text = ['-'] then .input else .path (.ofList text)

def scheduler (rules : Rules) : Except Halt Scheduler :=
  if Pool.Fits rules.capacity then .ok (.ofRules rules) else .error (.poolTooLarge rules.capacity)

/-- The bytes of the source. A directory can be opened, but nothing comes from it. -/
def source (h : Host) : Origin → Except Halt Text.Bytes
  | .input => .ok h.input
  | .path path =>
    match h.files path with
    | .ok (.file content) => .ok content
    | .ok .directory => .ok []
    | .error fault => .error (.unopened path fault)

/-- The session that is about to begin, with the time of its ticks. The scheduler is set up before
the source is opened. -/
def begin (h : Host) : Except Halt (Single × Session) := do
  let config ← (Config.load h.environment h.files).mapError .misconfigured
  let origin ← origin h.arguments
  let scheduler ← scheduler config.rules
  let bytes ← source h origin
  let intake := Source.pump bytes scheduler
  return ((Pacer.ofPace config.pace).dt, .ofScheduler intake.scheduler [])

def output (s : Session) : String := String.join (s.consoleLines.map fun line => line ++ "\n")

/-- A whole run, of at most `limit` ticks. -/
def run (h : Host) (limit : Nat) : Finish :=
  match begin h with
  | .error halt => ⟨halt.code, ""⟩
  | .ok (dt, session) => ⟨0, output (session.settle dt limit)⟩

end Program
end Turtle
