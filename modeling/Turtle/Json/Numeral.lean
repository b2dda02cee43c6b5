import Turtle.Decimal.Numeral
import Turtle.Json.Fault

/-! Numbers of JSON text.
A number without point and exponent that fits 64 bits is an integer, but for a negative zero. Any
other becomes a double: the leading digits that fit 64 bits, multiplied or divided by a power of
ten, each step rounded. It is not always the nearest double. -/
namespace Turtle.Json

inductive Literal where
  | integer (n : Int)
  | real (x : Double)
  deriving DecidableEq

def Literal.found : Literal → Found
  | integer n => .integer n
  | real x => .real x

/-- Joins digits to a significand while it stays below `2 ^ 64`; the digits from the first that does
not fit are left over. -/
def gather (significand : Nat) : List Char → Nat × List Char
  | [] => (significand, [])
  | digit :: more =>
    let longer := 10 * significand + Numeral.digitValue digit
    if longer < twoTo 64 then gather longer more else (significand, digit :: more)

def powerOfTen (n : Nat) : Double := Numeral.nearest ⟨false, 1, n⟩

def greatestPower : Nat := 308

/-- Divides by the greatest power of ten a number of times, unless zero is reached before. -/
def divideOut : (times : Nat) → Double → Double
  | 0, x => x
  | times + 1, x => if x.isZero then x else divideOut times (x / powerOfTen greatestPower)

/-- `significand × 10 ^ exponent` in double precision, if it is in range. -/
def scale? (significand : Nat) (exponent : Int) : Option Double :=
  let x : Double := .ofNat significand
  if significand = 0 then some x
  else if 0 ≤ exponent then
    if exponent ≤ greatestPower then
      let product := x * powerOfTen exponent.toNat
      if product.isFinite then some product else none
    else none
  else
    let times := (exponent.natAbs - 1) / greatestPower
    let reduced := divideOut times x
    if reduced.isZero then some reduced
    else some (reduced / powerOfTen (exponent.natAbs - times * greatestPower))

def signed (negative : Bool) (x : Double) : Double := if negative then -x else x

def readScaled (negative : Bool) (significand : Nat) (exponent : Int) (c : Cursor) :
    Result (Literal × Cursor) :=
  match scale? significand exponent with
  | some x => .ok (.real (signed negative x), c)
  | none => refuse c.place .numberOutOfRange

/-- The greatest exponent that is told apart from greater ones. -/
def greatestExponent : Nat := twoTo 31 - 1

/-- How many digits it takes to pass the greatest exponent, or all of them. -/
def digitsToExcess (value : Nat) : List Char → Nat
  | [] => 0
  | digit :: more =>
    let value := 10 * value + Numeral.digitValue digit
    if greatestExponent < value then 1 else digitsToExcess value more + 1

/-- The end of a number from its exponent mark on; `shift` is the exponent without it. -/
def readExponent (negative : Bool) (significand : Nat) (shift : Int) (c : Cursor) :
    Result (Literal × Cursor) :=
  let (downward, c) := match c.rest with
    | '+' :: _ => (false, c.eat)
    | '-' :: _ => (true, c.eat)
    | _ => (false, c)
  let (digits, after) := c.digits
  if digits = [] then
    if c.rest = [] then refuse c.place .endInValue else refuse c.ahead .invalidNumber
  else
    let exponent : Int := Numeral.value digits
    if exponent ≤ greatestExponent then
      readScaled negative significand (shift + if downward then -exponent else exponent) after
    else if significand = 0 ∨ downward then .ok (.real (.zero negative), after)
    else
      refuse ⟨c.place.line, c.place.column + digitsToExcess 0 digits⟩ .numberOutOfRange

/-- A whole number without point or exponent, of which `extra` digits did not fit. -/
def readWhole (negative : Bool) (significand : Nat) (extra : Nat) (c : Cursor) :
    Result (Literal × Cursor) :=
  if 0 < extra then readScaled negative significand extra c
  else if !negative then .ok (.integer significand, c)
  else if significand = 0 ∨ twoTo 63 < significand then
    .ok (.real (signed true (.ofNat significand)), c)
  else .ok (.integer (-significand), c)

def readTail (negative : Bool) (significand : Nat) (extra : Nat) (c : Cursor) :
    Result (Literal × Cursor) :=
  match c.rest with
  | '.' :: _ =>
    let c := c.eat
    let (places, after) := c.digits
    let (longer, unused) := gather significand places
    let shift : Int := extra - (places.length - unused.length : Nat)
    if places = [] then
      if c.rest = [] then refuse c.place .endInValue else refuse c.ahead .invalidNumber
    else match after.rest with
      | 'e' :: _ => readExponent negative longer shift after.eat
      | 'E' :: _ => readExponent negative longer shift after.eat
      | _ => readScaled negative longer shift after
  | 'e' :: _ => readExponent negative significand extra c.eat
  | 'E' :: _ => readExponent negative significand extra c.eat
  | _ => readWhole negative significand extra c

def readMagnitude (negative : Bool) (c : Cursor) : Result (Literal × Cursor) :=
  match c.rest, c.digits with
  | [], _ => refuse c.place .endInValue
  | _, ([], _) => refuse c.ahead .invalidNumber
  | _, ('0' :: _ :: _, _) => refuse c.eat.ahead .invalidNumber
  | _, (whole, after) =>
    let (significand, unused) := gather 0 whole
    readTail negative significand unused.length after

/-- A number that begins with a digit or a minus sign. -/
def readNumber (c : Cursor) : Result (Literal × Cursor) :=
  match c.rest with
  | '-' :: _ => readMagnitude true c.eat
  | _ => readMagnitude false c

end Turtle.Json
