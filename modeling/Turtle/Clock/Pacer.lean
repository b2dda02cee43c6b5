import Turtle.Clock.Span
import Turtle.Schedule.Scheduler

/-! Ticks of fixed length out of frames of any length.
Time that a frame brings is saved up, whole ticks are spent from it, and what a capped frame leaves
unspent is dropped. -/
namespace Turtle

/-- How a session is paced; a zero stands for the least or the usual value. -/
structure Pace where
  rate : Nat
  maxFrame : Span
  maxTicks : Nat
  reportEvery : Span
  deriving DecidableEq, Repr

namespace Pace

def standard : Pace := ⟨60, .ofMillis 250, 5, .second⟩

/-- The length of one tick at a rate per second: the quotient in double precision, then in whole
nanoseconds. It may be zero. -/
def tickLength (p : Pace) : Span := .ofSeconds (1 / Number.ofNat (max 1 p.rate))

end Pace

/-- What one frame comes to: ticks to run, time kept for later and time given up. -/
structure Plan where
  ticks : Nat
  backlog : Span
  dropped : Span
  deriving DecidableEq, Repr

namespace Plan

/-- Spends ticks of one length while the backlog has one and the cap allows it. -/
def spend (length : Span) (used : Nat) : (cap : Nat) → Span → Nat × Span
  | 0, backlog => (used, backlog)
  | cap + 1, backlog =>
    if length ≤ backlog then spend length (used + 1) cap (backlog - length) else (used, backlog)

def ofBacklog (length : Span) (cap : Nat) (backlog : Span) : Plan :=
  let (ticks, rest) := spend length 0 cap backlog
  if length ≤ rest then ⟨ticks, 0, rest⟩ else ⟨ticks, rest, 0⟩

end Plan

structure Pacer where
  tickLength : Span
  maxFrame : Span
  maxTicks : Nat
  backlog : Span
  deriving DecidableEq, Repr

namespace Pacer

def ofPace (p : Pace) : Pacer :=
  ⟨p.tickLength, if p.maxFrame = 0 then .ofMillis 250 else p.maxFrame, max 1 p.maxTicks, 0⟩

def dt (p : Pacer) : Single := p.tickLength.seconds

/-- The plan of a frame, which counts for no more than the longest frame. -/
def plan (p : Pacer) (frame : Span) : Plan :=
  .ofBacklog p.tickLength p.maxTicks (p.backlog.plus (min frame p.maxFrame))

def advance (p : Pacer) (frame : Span) (s : Scheduler) : Nat × Pacer × Scheduler :=
  let plan := p.plan frame
  (plan.ticks, { p with backlog := plan.backlog }, s.ticks p.dt plan.ticks)

end Pacer
end Turtle
