import Turtle.Clock.Pacer

/-! A session: a scheduler whose events are delivered to a listener as soon as a frame is over.
The listener answers each event that has a console line with its next reply, if it has one left. -/
namespace Turtle

structure Session where
  scheduler : Scheduler
  replies : List String
  delivered : Array Event

namespace Session

def ofScheduler (scheduler : Scheduler) (replies : List String) : Session :=
  ⟨scheduler, replies, #[]⟩

def receive (s : Session) (event : Event) : Session :=
  let s := { s with delivered := s.delivered.push event }
  match event.consoleLine?, s.replies with
  | some _, reply :: rest =>
    { s with scheduler := (s.scheduler.submit reply).2, replies := rest }
  | _, _ => s

def deliver (s : Session) : Session :=
  let (events, scheduler) := s.scheduler.drain
  events.foldl receive { s with scheduler := scheduler }

def frame (s : Session) (pacer : Pacer) (length : Span) : Pacer × Session :=
  let (_, pacer, scheduler) := pacer.advance length s.scheduler
  (pacer, { s with scheduler := scheduler }.deliver)

/-- A frame of exactly one tick. -/
def turn (s : Session) (dt : Single) : Session :=
  { s with scheduler := s.scheduler.tick dt }.deliver

/-- Turns until the scheduler is idle, at most `limit` of them. -/
def settle (dt : Single) : (limit : Nat) → Session → Session
  | 0, s => s
  | limit + 1, s => if s.scheduler.isIdle then s else settle dt limit (s.turn dt)

def consoleLines (s : Session) : List String := s.delivered.toList.filterMap Event.consoleLine?

end Session
end Turtle
