import Turtle.Clock.Span

/-! The rate of ticks, read once per interval. -/
namespace Turtle

structure Reading where
  rate : Single
  completed : Nat
  depth : Nat
  deriving DecidableEq

def Reading.zero : Reading := ⟨0, 0, 0⟩

structure Gauge where
  start : Span
  interval : Span
  ticks : Nat
  deriving DecidableEq, Repr

namespace Gauge

def ofInterval (start interval : Span) : Gauge := ⟨start, interval, 0⟩

/-- Counts ticks, up to the greatest 32-bit count. -/
def record (g : Gauge) (n : Nat) : Gauge := { g with ticks := min (g.ticks + n) (twoTo 32 - 1) }

/-- The time since the interval began; none, if the clock stands before that. -/
def elapsed (g : Gauge) (now : Span) : Span := now - g.start

/-- Ticks per second over a span, which counts for no less than the least step at one. -/
def rate (ticks : Nat) (elapsed : Span) : Single :=
  let seconds := elapsed.seconds
  Number.ofNat ticks / if seconds < Number.epsilon then Number.epsilon else seconds

/-- A reading, once the interval has passed; the next interval begins with it. -/
def read? (g : Gauge) (now : Span) (completed depth : Nat) : Option (Reading × Gauge) :=
  if g.elapsed now < g.interval then none
  else some (⟨rate g.ticks (g.elapsed now), completed, depth⟩, { g with start := now, ticks := 0 })

end Gauge

/-- A gauge with the reading on show, the last one taken. -/
structure Monitor where
  gauge : Gauge
  shown : Reading
  deriving DecidableEq

namespace Monitor

def ofInterval (start interval : Span) : Monitor := ⟨.ofInterval start interval, .zero⟩

def record (m : Monitor) (n : Nat) : Monitor := { m with gauge := m.gauge.record n }

def observe (m : Monitor) (now : Span) (completed depth : Nat) : Option Reading × Monitor :=
  match m.gauge.read? now completed depth with
  | none => (none, m)
  | some (reading, gauge) => (some reading, ⟨gauge, reading⟩)

end Monitor
end Turtle
