import Turtle.Number.Basic

/-! Decimal numerals as text.
A numeral denotes a rational exactly, whatever its length; only then is it rounded, once, to the
nearest number of a format. Whole numbers are read up to a limit and never rounded. -/
namespace Turtle

/-- The rational `±significand × 10 ^ exponent`. -/
structure Numeral where
  negative : Bool
  significand : Nat
  exponent : Int
  deriving DecidableEq, Repr

namespace Numeral

def digitValue (c : Char) : Nat := c.toNat - '0'.toNat

/-- The value of a run of digits that follows digits of value `high`. -/
def valueFrom (high : Nat) (digits : List Char) : Nat :=
  digits.foldl (fun value c => 10 * value + digitValue c) high

def value (digits : List Char) : Nat := valueFrom 0 digits

/-- A leading sign, true for minus, and what follows it. -/
def splitSign : List Char → Bool × List Char
  | '-' :: rest => (true, rest)
  | '+' :: rest => (false, rest)
  | text => (false, text)

/-- The digits after a point, if there is one, and what follows them. -/
def fraction : List Char → List Char × List Char
  | '.' :: rest => rest.span Char.isDigit
  | text => ([], text)

/-- The exponent that ends a numeral: none written is zero, and a written one has a digit. -/
def exponentPart : List Char → Option Int
  | [] => some 0
  | mark :: rest =>
    let (negative, digits) := splitSign rest
    if (mark = 'e' ∨ mark = 'E') ∧ digits ≠ [] ∧ digits.all Char.isDigit then
      some (if negative then -(value digits : Int) else value digits)
    else none

/-- A numeral without its sign: digits with at most one point and at least one digit, then an
optional exponent. -/
def unsigned? (negative : Bool) (text : List Char) : Option Numeral :=
  let (whole, rest) := text.span Char.isDigit
  let (places, rest) := fraction rest
  if whole = [] ∧ places = [] then none
  else (exponentPart rest).map fun exponent =>
    ⟨negative, valueFrom (value whole) places, exponent - places.length⟩

variable {F : Format}

/-- The number nearest to a numeral. Past `10 ^ 400` every format is infinite, and a product
below `2 ^ -1200` rounds to zero in each. -/
def nearest (n : Numeral) : Number F :=
  if n.significand = 0 then .zero n.negative
  else if 0 ≤ n.exponent then
    if 400 < n.exponent then .infinite n.negative
    else .ofRatio n.negative (n.significand * tenTo n.exponent.toNat) 1
  else if n.significand.log2 + 1200 < 3 * n.exponent.natAbs then .zero n.negative
  else .ofRatio n.negative n.significand (tenTo n.exponent.natAbs)

end Numeral

/-- Words for the values no numeral denotes, in any case. -/
def Number.ofWord? {F : Format} (negative : Bool) (word : List Char) : Option (Number F) :=
  match String.ofList (word.map Char.toLower) with
  | "inf" | "infinity" => some (.infinite negative)
  | "nan" => some .nan
  | _ => none

/-- The number a text denotes: a word or a numeral, with an optional sign. -/
def Number.ofText? {F : Format} (text : List Char) : Option (Number F) :=
  let (negative, body) := Numeral.splitSign text
  (Number.ofWord? negative body).orElse fun _ =>
    (Numeral.unsigned? negative body).map Numeral.nearest

/-- A whole number below `limit`: digits only, after an optional plus sign. -/
def wholeOfText? (limit : Nat) (text : List Char) : Option Nat :=
  let digits := match text with
    | '+' :: rest => rest
    | _ => text
  if digits ≠ [] ∧ digits.all Char.isDigit ∧ Numeral.value digits < limit then
    some (Numeral.value digits)
  else none

/-- The texts that are read: digits, after a plus sign or by themselves, whose value is below the
limit. -/
theorem wholeOfText?_eq_some_iff {limit n : Nat} {text : List Char} :
    wholeOfText? limit text = some n ↔
      ∃ digits, (text = digits ∨ text = '+' :: digits) ∧ digits ≠ [] ∧
        (∀ c ∈ digits, c.isDigit = true) ∧ Numeral.value digits = n ∧ n < limit := by
  -- A text that starts with a digit has no plus sign to be taken off.
  have bare {c : Char} {more : List Char} (digit : c.isDigit = true) :
      (match c :: more with
        | '+' :: rest => rest
        | _ => c :: more) = c :: more := by
    split
    · rename_i same
      cases same
      contradiction
    · rfl
  simp only [wholeOfText?, List.all_eq_true, Option.ite_none_right_eq_some, Option.some.injEq]
  constructor
  · rintro ⟨⟨some, digits, below⟩, rfl⟩
    refine ⟨_, ?_, some, digits, rfl, below⟩
    split
    · exact .inr rfl
    · exact .inl rfl
  · rintro ⟨digits, rfl | rfl, some, all, rfl, below⟩
    · obtain _ | ⟨c, more⟩ := text
      · contradiction
      · rw [bare (all c List.mem_cons_self)]
        exact ⟨⟨some, all, below⟩, rfl⟩
    · exact ⟨⟨some, all, below⟩, rfl⟩

end Turtle
