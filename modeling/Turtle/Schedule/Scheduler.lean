import Turtle.Command.Grammar
import Turtle.Schedule.Outbox
import Turtle.Schedule.Stage
import Turtle.Text.Blank

/-! The scheduler: lines wait in a queue and are carried out one at a time, in order.
A tick either takes the next step of the move under way or starts the next line, so a move holds
up every line behind it until it completes. -/
namespace Turtle

structure Scheduler where
  stage : Stage
  queue : List String
  underway : Option Underway
  outbox : Outbox
  completed : Nat
  deriving DecidableEq

namespace Scheduler

def ofRules (rules : Rules) : Scheduler := ⟨.ofRules rules, [], none, .empty, 0⟩

/-- Whether a line is worth queueing: it has something other than white space. -/
def accepts (line : String) : Bool := !Text.isAllBlank line.toList

def submit (s : Scheduler) (line : String) : Bool × Scheduler :=
  if accepts line then (true, { s with queue := s.queue ++ [line] }) else (false, s)

def isBusy (s : Scheduler) : Bool := s.underway.isSome

def isIdle (s : Scheduler) : Bool := !s.isBusy && s.queue.isEmpty

/-- Takes in what a tick of work came to. A command without a move under way is completed. -/
def conclude (s : Scheduler) (outcome : Outcome) : Scheduler :=
  { s with
    stage := outcome.stage
    outbox := s.outbox.pushAll outcome.events
    underway := outcome.underway
    completed := if outcome.underway.isSome then s.completed else countUp s.completed }

/-- The work of the next tick, if there is any: the next step of the move under way, or else the
first tick of the first line. -/
def work? (s : Scheduler) (dt : Single) : Option Outcome :=
  match s.underway with
  | some move => some (s.stage.resume dt move)
  | none => s.queue.head?.map fun line => s.stage.perform dt (.ofLine line)

/-- The lines that wait once the next tick has begun. -/
def waiting (s : Scheduler) : List String := if s.isBusy then s.queue else s.queue.tail

def tick (s : Scheduler) (dt : Single) : Scheduler :=
  match s.work? dt with
  | some outcome => { s with queue := s.waiting }.conclude outcome
  | none => s

def ticks (s : Scheduler) (dt : Single) : Nat → Scheduler
  | 0 => s
  | n + 1 => (s.tick dt).ticks dt n

/-- Ticks until nothing waits or moves, at most `limit` times; `used` counts the ticks before. -/
def runFrom (dt : Single) (used : Nat) : (limit : Nat) → Scheduler → Nat × Scheduler
  | 0, s => (used, s)
  | limit + 1, s => if s.isIdle then (used, s) else runFrom dt (used + 1) limit (s.tick dt)

/-- Ticks until idle, at most `limit` times, with the number of ticks used. -/
def run (s : Scheduler) (dt : Single) (limit : Nat) : Nat × Scheduler := runFrom dt 0 limit s

def drain (s : Scheduler) : List Event × Scheduler :=
  let (events, outbox) := s.outbox.drain
  (events, { s with outbox := outbox })

theorem isIdle_iff (s : Scheduler) : s.isIdle = true ↔ s.underway = none ∧ s.queue = [] := by
  simp [isIdle, isBusy]

theorem work?_of_isIdle {s : Scheduler} (idle : s.isIdle = true) (dt : Single) :
    s.work? dt = none := by
  obtain ⟨rest, empty⟩ := s.isIdle_iff.mp idle
  simp only [work?, rest, empty, List.head?_nil, Option.map_none]

theorem tick_of_isIdle {s : Scheduler} (idle : s.isIdle = true) (dt : Single) : s.tick dt = s := by
  simp only [tick, work?_of_isIdle idle dt]

theorem ticks_of_isIdle {s : Scheduler} (idle : s.isIdle = true) (dt : Single) (n : Nat) :
    s.ticks dt n = s := by
  induction n with
  | zero => rfl
  | succ n ih => rw [ticks, tick_of_isIdle idle, ih]

theorem ticks_add (s : Scheduler) (dt : Single) (m n : Nat) :
    s.ticks dt (m + n) = (s.ticks dt m).ticks dt n := by
  induction m generalizing s with
  | zero => rw [Nat.zero_add]; rfl
  | succ m ih => rw [Nat.succ_add]; exact ih (s.tick dt)

end Scheduler
end Turtle
