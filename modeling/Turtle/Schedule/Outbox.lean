import Turtle.Schedule.Event

/-! Events that nobody has taken yet: the latest ones, up to a limit, and a count of those that had
to make room. -/
namespace Turtle

/-- One more, up to the greatest 64-bit count. -/
def countUp (n : Nat) : Nat := min (n + 1) (twoTo 64 - 1)

structure Outbox where
  waiting : List Event
  dropped : Nat
  deriving DecidableEq

namespace Outbox

def limit : Nat := 1024

def empty : Outbox := ⟨[], 0⟩

def push (o : Outbox) (event : Event) : Outbox :=
  if o.waiting.length = limit then ⟨o.waiting.drop 1 ++ [event], countUp o.dropped⟩
  else ⟨o.waiting ++ [event], o.dropped⟩

def pushAll (o : Outbox) (events : List Event) : Outbox := events.foldl push o

def drain (o : Outbox) : List Event × Outbox := (o.waiting, ⟨[], o.dropped⟩)

theorem push_of_room {o : Outbox} (room : o.waiting.length < limit) (event : Event) :
    o.push event = ⟨o.waiting ++ [event], o.dropped⟩ := by
  simp only [push, if_neg (Nat.ne_of_lt room)]

end Outbox
end Turtle
