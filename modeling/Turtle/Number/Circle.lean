import Turtle.Number.Basic

/-! Sine and cosine of an angle in radians.
An angle is a whole number of quanta, so its remainder by a quarter turn is computed on integers.
The series are summed in fixed point with far more places than the result keeps, and rounded once.
That no result lies close enough to a rounding boundary to be spoilt by this is not proved. -/
namespace Turtle.Circle

def places : Nat := 640

def one : Nat := twoTo places

/-- Terms of the series for the arc tangent of `1 / n`, from the one with divisor `odd` on. -/
def arctanTail (n : Nat) : (terms power odd : Nat) → Int
  | 0, _, _ => 0
  | terms + 1, power, odd =>
    (power / odd : Nat) - arctanTail n terms (power / (n * n)) (odd + 2)

/-- A quarter turn, `8 arctan (1/5) - 2 arctan (1/239)`. -/
def quarterTurn : Nat :=
  (8 * arctanTail 5 160 (one / 5) 1 - 2 * arctanTail 239 50 (one / 239) 1).toNat

/-- `1 - s / (k (k+1)) (1 - s / ((k+2) (k+3)) (1 - …))`, the common shape of both series. -/
def series (s : Nat) : (terms k : Nat) → Nat
  | 0, _ => one
  | terms + 1, k => one - s * series s terms (k + 2) / one / (k * (k + 1))

/-- Terms that reach the last place for angles up to half a quarter turn. -/
def terms : Nat := 80

/-- Sine and cosine of a fixed-point angle of at most half a quarter turn. -/
def ofSmall (angle : Int) : Int × Int :=
  let s := angle.natAbs * angle.natAbs / one
  (angle * (series s terms 2 : Nat) / one, series s terms 1)

/-- Sine and cosine of a nonnegative fixed-point angle: the nearest whole number of quarter turns
is taken off, and the point turned back by it. -/
def point (angle : Nat) : Int × Int :=
  let turns := (2 * angle + quarterTurn) / (2 * quarterTurn)
  let (s, c) := ofSmall (angle - turns * quarterTurn)
  match turns % 4 with
  | 0 => (s, c)
  | 1 => (c, -s)
  | 2 => (-s, -c)
  | _ => (-c, s)

variable {F : Format}

def scaled (code : Nat) (F : Format) : Nat := F.quanta code * one / F.unit

def toNumber (value : Int) (flip : Bool) : Number F :=
  Number.ofRatio ((value < 0) != flip) value.natAbs one

end Circle

namespace Number

variable {F : Format}

def sin : Number F → Number F
  | nan => nan
  | x@(signed negative code _) =>
    if code = F.infinity then nan
    else if code = 0 then x
    else Circle.toNumber (Circle.point (Circle.scaled code F)).1 negative

def cos : Number F → Number F
  | nan => nan
  | signed _ code _ =>
    if code = F.infinity then nan
    else Circle.toNumber (Circle.point (Circle.scaled code F)).2 false

end Number
end Turtle
