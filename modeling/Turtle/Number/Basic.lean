import Turtle.Number.Format

/-! Binary floating-point numbers: a sign and a code, or the one value that is not a number.
Each operation is computed exactly in quanta and rounded once. Comparisons are the numerical ones:
the two zeros are equal, and nothing compares with `nan`. -/
namespace Turtle

inductive Number (F : Format) where
  | nan
  | signed (negative : Bool) (code : Nat) (bounded : code ≤ F.infinity)
  deriving DecidableEq

abbrev Single := Number Format.single

abbrev Double := Number Format.double

namespace Number

variable {F G : Format}

/-- The number nearest to `num / den` quanta, with the given sign. -/
def nearest (negative : Bool) (num den : Nat) : Number F :=
  .signed negative (F.nearest num den) (F.nearest_le num den)

def ofRatio (negative : Bool) (num den : Nat) : Number F :=
  nearest negative (num * F.unit) den

def ofNat (n : Nat) : Number F := ofRatio false n 1

def ofInt (n : Int) : Number F := ofRatio (n < 0) n.natAbs 1

instance (n : Nat) : OfNat (Number F) n := ⟨ofNat n⟩

instance : Inhabited (Number F) := ⟨0⟩

def zero (negative : Bool) : Number F := .signed negative 0 (Nat.zero_le _)

def infinite (negative : Bool) : Number F := .signed negative F.infinity (Nat.le_refl _)

def isFinite : Number F → Bool
  | nan => false
  | signed _ code _ => code < F.infinity

def isZero : Number F → Bool
  | nan => false
  | signed _ code _ => code == 0

def quanta : Number F → Int
  | nan => 0
  | signed negative code _ => if negative then -(F.quanta code : Int) else F.quanta code

protected def neg : Number F → Number F
  | nan => nan
  | signed negative code bounded => signed (!negative) code bounded

def abs : Number F → Number F
  | nan => nan
  | signed _ code bounded => signed false code bounded

/-- An exact sum of zero is negative only if both terms are. -/
protected def add : Number F → Number F → Number F
  | x@(signed s a _), y@(signed t b _) =>
    if a = F.infinity then if b = F.infinity && s != t then nan else x
    else if b = F.infinity then y
    else
      let sum := x.quanta + y.quanta
      nearest (if sum = 0 then s && t else sum < 0) sum.natAbs 1
  | _, _ => nan

protected def sub (x y : Number F) : Number F := x.add y.neg

protected def mul : Number F → Number F → Number F
  | signed s a _, signed t b _ =>
    if a = F.infinity then if b = 0 then nan else infinite (s != t)
    else if b = F.infinity then if a = 0 then nan else infinite (s != t)
    else nearest (s != t) (F.quanta a * F.quanta b) F.unit
  | _, _ => nan

protected def div : Number F → Number F → Number F
  | signed s a _, signed t b _ =>
    if a = F.infinity then if b = F.infinity then nan else infinite (s != t)
    else if b = F.infinity then zero (s != t)
    else if b = 0 then if a = 0 then nan else infinite (s != t)
    else nearest (s != t) (F.quanta a * F.unit) (F.quanta b)
  | _, _ => nan

/-- The square root, rounded once: the integer root of the square in quanta, and a half above it
when the root is not exact, stay on the same side of every point where rounding changes. -/
def sqrt : Number F → Number F
  | nan => nan
  | x@(signed negative code _) =>
    if code = 0 then x
    else if negative then nan
    else if code = F.infinity then x
    else
      let square := F.quanta code * F.unit
      let root := floorSqrt (square.log2 / 2 + 1) square
      nearest false (2 * root + if root * root = square then 0 else 1) 2

instance : Neg (Number F) := ⟨Number.neg⟩
instance : Add (Number F) := ⟨Number.add⟩
instance : Sub (Number F) := ⟨Number.sub⟩
instance : Mul (Number F) := ⟨Number.mul⟩
instance : Div (Number F) := ⟨Number.div⟩

/-- The place of a signed code on the line; both zeros are at the origin. -/
def rank (negative : Bool) (code : Nat) : Int := if negative then -(code : Int) else code

def atMost : Number F → Number F → Bool
  | signed s a _, signed t b _ => rank s a ≤ rank t b
  | _, _ => false

def below : Number F → Number F → Bool
  | signed s a _, signed t b _ => rank s a < rank t b
  | _, _ => false

instance : LE (Number F) := ⟨fun x y => x.atMost y = true⟩
instance : LT (Number F) := ⟨fun x y => x.below y = true⟩
instance (x y : Number F) : Decidable (x ≤ y) := inferInstanceAs (Decidable (x.atMost y = true))
instance (x y : Number F) : Decidable (x < y) := inferInstanceAs (Decidable (x.below y = true))

/-- Numerical equality: `nan` differs from itself, and the two zeros are equal. -/
def equals (x y : Number F) : Bool := x.atMost y && y.atMost x

def convert : Number F → Number G
  | nan => nan
  | signed negative code _ =>
    if code = F.infinity then infinite negative
    else nearest negative (F.quanta code * G.unit) F.unit

/-- The least positive difference between one and a greater number. -/
def epsilon : Number F := ofRatio false 1 F.binade

def signPlace (F : Format) : Nat := (F.topExponent + 1) * F.binade

/-- The bits of a number, the sign above the code. -/
def toBits? : Number F → Option Nat
  | nan => none
  | signed negative code _ => some (if negative then signPlace F + code else code)

def ofBits (bits : Nat) : Number F :=
  let code := bits % signPlace F
  if h : code ≤ F.infinity then signed (bits / signPlace F % 2 == 1) code h else nan

end Number
end Turtle
