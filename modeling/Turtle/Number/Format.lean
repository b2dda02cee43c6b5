import Turtle.Number.Rounding

/-! Binary interchange formats as scales of codes.
Every finite magnitude of a format is a whole number of quanta, a quantum being its least positive
magnitude, and codes are ordered as the magnitudes they stand for. The code after the last finite
one stands for infinity. -/
namespace Turtle

/-- A format is given by its fraction bits, the exponent field of infinity, and the quantum
`2 ^ -quantumBits`. -/
structure Format where
  fractionBits : Nat
  topExponent : Nat
  quantumBits : Nat
  deriving DecidableEq, Repr

namespace Format

def single : Format := ⟨23, 255, 149⟩

def double : Format := ⟨52, 2047, 1074⟩

/-- The number of codes that share one exponent field. -/
def binade (F : Format) : Nat := twoTo F.fractionBits

/-- The number of quanta in one. -/
def unit (F : Format) : Nat := twoTo F.quantumBits

def infinity (F : Format) : Nat := F.topExponent * F.binade

/-- The magnitude of a code in quanta. The first two binades count quanta one by one; in each
later binade the step is twice that of the binade before. -/
def quanta (F : Format) (code : Nat) : Nat :=
  if code < F.binade then code
  else (F.binade + code % F.binade) <<< (code / F.binade - 1)

/-- The code nearest to `num / den` quanta, ties to the even code. The step of the scale at the
quotient is `2 ^ shift` quanta, and a carry into the next binade is the next code. -/
def nearest (F : Format) (num den : Nat) : Nat :=
  let shift := (num / den).log2 - F.fractionBits
  min F.infinity (shift * F.binade + roundDiv num (den <<< shift))

theorem binade_pos (F : Format) : 0 < F.binade := twoTo_pos _

theorem unit_pos (F : Format) : 0 < F.unit := twoTo_pos _

theorem nearest_le (F : Format) (num den : Nat) : F.nearest num den ≤ F.infinity :=
  Nat.min_le_left _ _

end Format
end Turtle
