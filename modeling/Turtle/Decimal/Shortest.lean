import Turtle.Number.Basic

/-! The fewest decimal digits that identify a number of a format.
The reals that round to a code form an interval around its magnitude, with both ends when the code
is even. The answer lies on the coarsest decimal grid that meets the interval, at the point nearest
to the magnitude. All comparisons are between integers. -/
namespace Turtle

/-- Which of two equally near points is taken. -/
inductive Tie where
  | up
  | even
  deriving DecidableEq, Repr

namespace Format

/-- The point of the grid of multiples of `10 ^ k` that identifies a code and is nearest to it,
if the grid has one; it is one of the two neighbours of the magnitude. -/
def onGrid? (F : Format) (tie : Tie) (code : Nat) (k : Int) : Option Nat :=
  let up := tenTo (-k).toNat
  let step := 2 * F.unit * tenTo k.toNat
  let low := (F.quanta (code - 1) + F.quanta code) * up
  let value := 2 * F.quanta code * up
  let high := (F.quanta code + F.quanta (code + 1)) * up
  let inside (d : Nat) : Bool :=
    if code % 2 = 0 then low ≤ d * step && d * step ≤ high
    else low < d * step && d * step < high
  let d := value / step
  match inside d, inside (d + 1) with
  | true, true =>
    let before := value - d * step
    let after := (d + 1) * step - value
    if before < after then some d
    else if after < before then some (d + 1)
    else match tie with
      | .up => some (d + 1)
      | .even => some (d + d % 2)
  | true, false => some d
  | false, true => some (d + 1)
  | false, false => none

/-- The first hit on `count` grids, each ten times finer than the one before; failing them all,
the magnitude itself, which is a multiple of `10 ^ -quantumBits`. -/
def firstOnGrid (F : Format) (tie : Tie) (code : Nat) : (count : Nat) → (k : Int) → Nat × Int
  | 0, _ => (F.quanta code * Nat.pow 5 F.quantumBits, -F.quantumBits)
  | count + 1, k =>
    match F.onGrid? tie code k with
    | some d => (d, k)
    | none => F.firstOnGrid tie code count (k - 1)

/-- The shortest decimal `d × 10 ^ k` that identifies a finite code. The search begins on a grid
with no positive point in reach. -/
def shortest (F : Format) (tie : Tie) (code : Nat) : Nat × Int :=
  if code = 0 then (0, 0)
  else
    let start := (F.quanta (code + 1) / F.unit).log2 / 3 + 1
    F.firstOnGrid tie code (start + F.quantumBits + 1) start

end Format
end Turtle
