import Turtle.Decimal.Shortest

/-! How numbers are written in decimal: with the shortest digits, in one of three layouts, or
with a fixed count of places. -/
namespace Turtle

/-- A layout of shortest digits. Decimal exponents of the first digit inside `positional` are
written out with zeros (all of them, if there is no such range) and the others with an exponent. -/
structure Layout where
  tie : Tie
  positional : Option (Int × Int)
  keepsPoint : Bool

namespace Layout

/-- Never an exponent, and a point only before a fraction. -/
def plain : Layout := ⟨.up, none, false⟩

def jsonSingle : Layout := ⟨.even, some (-6, 12), true⟩

/-- Double precision in reports about JSON text. -/
def jsonDouble : Layout := ⟨.even, some (-5, 15), true⟩

def isPositional (layout : Layout) (lead : Int) : Bool :=
  match layout.positional with
  | none => true
  | some (low, high) => low ≤ lead && lead ≤ high

def zeros (n : Nat) : List Char := List.replicate n '0'

/-- Digits whose first has the place value `10 ^ lead`, written out. -/
def writtenOut (layout : Layout) (digits : List Char) (lead : Int) : List Char :=
  if lead < 0 then '0' :: '.' :: zeros (lead.natAbs - 1) ++ digits
  else
    let whole := lead.toNat + 1
    if digits.length ≤ whole then
      digits ++ zeros (whole - digits.length) ++ if layout.keepsPoint then ['.', '0'] else []
    else digits.take whole ++ '.' :: digits.drop whole

/-- Digits with a point after the first and a signed exponent. -/
def scientific (digits : List Char) (lead : Int) : List Char :=
  let mantissa := match digits with
    | first :: more@(_ :: _) => first :: '.' :: more
    | _ => digits
  mantissa ++ 'e' :: (if lead < 0 then '-' else '+') :: Nat.toDigits 10 lead.natAbs

def magnitude (layout : Layout) (F : Format) (code : Nat) : List Char :=
  let (significand, exponent) := F.shortest layout.tie code
  let digits := Nat.toDigits 10 significand
  let lead := exponent + digits.length - 1
  if layout.isPositional lead then layout.writtenOut digits lead else scientific digits lead

end Layout

namespace Number

variable {F : Format}

def signText (negative : Bool) : String := if negative then "-" else ""

/-- The number in a layout; the other values are words. -/
def written (layout : Layout) : Number F → String
  | nan => "NaN"
  | signed negative code _ =>
    signText negative ++
      if code = F.infinity then "inf" else String.ofList (layout.magnitude F code)

/-- The number as a JSON value, which can only be finite. -/
def json (layout : Layout) (x : Number F) : String :=
  if x.isFinite then x.written layout else "null"

def padded (width n : Nat) : List Char :=
  let digits := Nat.toDigits 10 n
  Layout.zeros (width - digits.length) ++ digits

/-- The number with two places, rounded from its exact value, a tie to the even hundredth. The sign
stays where the digits are all zero. -/
def hundredths : Number F → String
  | nan => "NaN"
  | signed negative code _ =>
    signText negative ++
      if code = F.infinity then "inf"
      else
        let count := roundDiv (F.quanta code * 100) F.unit
        String.ofList (Nat.toDigits 10 (count / 100) ++ '.' :: padded 2 (count % 100))

end Number
end Turtle
