import Turtle.Number.Basic

/-! Lengths of time in whole nanoseconds. -/
namespace Turtle

abbrev Span := Nat

namespace Span

def second : Span := tenTo 9

def ofMillis (n : Nat) : Span := n * tenTo 6

/-- The greatest length of time that is kept: seconds have 64 bits. -/
def longest : Span := twoTo 64 * second - 1

def plus (a b : Span) : Span := min longest (a + b)

/-- A span in seconds: whole seconds and the rest, each rounded, then added. -/
def seconds (a : Span) : Single :=
  Number.ofNat (a / second) + Number.ofNat (a % second) / Number.ofNat second

/-- A number of seconds in whole nanoseconds, a tie to the even one. -/
def ofSeconds (x : Double) : Span :=
  roundDiv (x.quanta.natAbs * second) Format.double.unit

end Span
end Turtle
