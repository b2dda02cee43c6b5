import Turtle.Json.Numeral
import Mathlib.Data.List.TakeDrop

/-! The numbers of JSON text.
A written number is its parts. What the reader makes of the text of these parts is said without a
cursor, and the reader takes that text and no more of what follows. -/
namespace Turtle.Json

/-- The end of a number that has an exponent. A sign is there or not, and true for minus. -/
structure Power where
  mark : Char
  sign : Option Bool
  digits : List Char
  known : mark = 'e' ∨ mark = 'E'
  proper : digits ≠ []
  numeric : digits.all Char.isDigit

structure Written where
  negative : Bool
  whole : List Char
  places : List Char
  power : Option Power
  proper : whole ≠ []
  numeric : whole.all Char.isDigit
  plain : whole.head? = some '0' → whole = ['0']
  fraction : places.all Char.isDigit

namespace Power

def downward (p : Power) : Bool := p.sign = some true

def text (p : Power) : List Char :=
  p.mark :: (p.sign.elim [] fun minus => [if minus then '-' else '+']) ++ p.digits

def value (p : Power) : Int :=
  if p.downward then -(Numeral.value p.digits : Int) else Numeral.value p.digits

/-- What the reader makes of an exponent, given what stands before it. -/
def literal? (p : Power) (negative : Bool) (significand : Nat) (shift : Int) : Option Literal :=
  if Numeral.value p.digits ≤ greatestExponent then
    (scale? significand (shift + p.value)).map fun x => .real (signed negative x)
  else if significand = 0 ∨ p.downward then some (.real (.zero negative))
  else none

end Power

namespace Written

def pointText (n : Written) : List Char := if n.places = [] then [] else '.' :: n.places

def powerText (n : Written) : List Char := n.power.elim [] Power.text

def text (n : Written) : List Char :=
  (if n.negative then ['-'] else []) ++ (n.whole ++ (n.pointText ++ n.powerText))

/-- The rational that is written. -/
def numeral (n : Written) : Numeral :=
  ⟨n.negative, Numeral.valueFrom (Numeral.value n.whole) n.places,
    n.power.elim 0 Power.value - n.places.length⟩

/-- The significand that the reader gathers, and its exponent but for the written one. -/
def significand (n : Written) : Nat := (gather (gather 0 n.whole).1 n.places).1

def shift (n : Written) : Int :=
  (gather 0 n.whole).2.length
    - (n.places.length - (gather (gather 0 n.whole).1 n.places).2.length : Nat)

def isInteger (n : Written) : Bool :=
  n.power.isNone && n.places.isEmpty && (gather 0 n.whole).2.isEmpty

/-- What the reader makes of a number, if it is in range. -/
def literal? (n : Written) : Option Literal :=
  match n.power with
  | some p => p.literal? n.negative n.significand n.shift
  | none =>
    if ¬n.isInteger then
      (scale? n.significand n.shift).map fun x => .real (signed n.negative x)
    else if !n.negative then some (.integer n.significand)
    else if n.significand = 0 ∨ twoTo 63 < n.significand then
      some (.real (signed true (.ofNat n.significand)))
    else some (.integer (-n.significand))

end Written

namespace Written

/-- The exponent of the significand that is gathered. -/
def exponent (n : Written) : Int := n.shift + n.power.elim 0 Power.value

/-- A number that is read as a double, with an exponent that is told apart from greater ones. -/
structure IsReal (n : Written) : Prop where
  broken : n.isInteger = false
  modest : ∀ p ∈ n.power, Numeral.value p.digits ≤ greatestExponent

theorem IsReal.literal? {n : Written} (real : n.IsReal) :
    n.literal? = (scale? n.significand n.exponent).map fun x => .real (signed n.negative x) := by
  obtain ⟨broken, modest⟩ := real
  cases power : n.power with
  | none => simp [Written.literal?, exponent, power, broken]
  | some p => simp [Written.literal?, exponent, power, Power.literal?, modest p power]

end Written

/-- A literal in single precision: an integer is rounded once, a double a second time. -/
def Literal.single : Literal → Single
  | integer n => .ofInt n
  | real x => x.convert

def Written.single? (n : Written) : Option Single := n.literal?.map Literal.single

/-- A reading that gives a value and leaves a rest, or fails where there is no value to give. -/
def Yields {α : Type} (reading : Result (α × Cursor)) (a? : Option α) (rest : List Char) : Prop :=
  match a? with
  | some a => ∃ place, reading = .ok (a, ⟨rest, place⟩)
  | none => ∃ fault, reading = .error fault

/-- A text that no number goes on with. -/
def Stops (rest : List Char) : Prop :=
  ∀ c ∈ rest.head?, c.isDigit = false ∧ c ≠ '.' ∧ c ≠ 'e' ∧ c ≠ 'E'

theorem span_append {digits rest : List Char} (numeric : digits.all Char.isDigit)
    (stop : ∀ c ∈ rest.head?, c.isDigit = false) :
    (digits ++ rest).span Char.isDigit = (digits, rest) := by
  have all := List.all_eq_true.mp numeric
  have none : rest.takeWhile Char.isDigit = [] ∧ rest.dropWhile Char.isDigit = rest := by
    cases rest with
    | nil => simp
    | cons c rest => simp [stop c rfl]
  simp [List.span_eq_takeWhile_dropWhile, List.takeWhile_append_of_pos all,
    List.dropWhile_append_of_pos all, none]

theorem digits_append {digits rest : List Char} (numeric : digits.all Char.isDigit)
    (stop : ∀ c ∈ rest.head?, c.isDigit = false) (place : Place) :
    (⟨digits ++ rest, place⟩ : Cursor).digits
      = (digits, ⟨rest, place.line, place.column + digits.length⟩) := by
  simp only [Cursor.digits, span_append numeric stop]

theorem readScaled_yields (negative : Bool) (significand : Nat) (exponent : Int) (rest : List Char)
    (place : Place) :
    Yields (readScaled negative significand exponent ⟨rest, place⟩)
      ((scale? significand exponent).map fun x => .real (signed negative x)) rest := by
  unfold readScaled
  cases scale? significand exponent with
  | none => exact ⟨_, rfl⟩
  | some x => exact ⟨_, rfl⟩

theorem Power.yields (p : Power) (negative : Bool) (significand : Nat) (shift : Int)
    (rest : List Char) (place fault : Place) :
    Yields
      (if (Numeral.value p.digits : Int) ≤ greatestExponent then
        readScaled negative significand (shift + p.value) ⟨rest, place⟩
      else if significand = 0 ∨ p.downward then .ok (.real (.zero negative), ⟨rest, place⟩)
      else refuse fault .numberOutOfRange)
      (p.literal? negative significand shift) rest := by
  unfold Power.literal?
  simp only [Int.ofNat_le]
  split_ifs
  · exact readScaled_yields negative significand _ rest place
  · exact ⟨place, rfl⟩
  · exact ⟨_, rfl⟩

theorem readExponent_yields (p : Power) {rest : List Char} (stop : Stops rest) (negative : Bool)
    (significand : Nat) (shift : Int) (place : Place) :
    Yields (readExponent negative significand shift
      (⟨p.text ++ rest, place⟩ : Cursor).eat) (p.literal? negative significand shift) rest := by
  have ends : ∀ c ∈ rest.head?, c.isDigit = false := fun c first => (stop c first).1
  have goes := p.yields negative significand shift rest
  obtain ⟨mark, sign, digits, known, proper, numeric⟩ := p
  have found := digits_append numeric ends
  simp only [Power.value, Power.downward] at goes
  unfold readExponent
  rcases sign with _ | _ | _
  · obtain ⟨d, ds, rfl⟩ := List.exists_cons_of_ne_nil proper
    have digit : d.isDigit = true := by simpa using (List.all_eq_true.mp numeric) d
    have plus : d ≠ '+' := by rintro rfl; cases digit
    have minus : d ≠ '-' := by rintro rfl; cases digit
    simp only [List.cons_append] at found
    simpa [Power.text, Cursor.eat, plus, minus, found] using goes _ _
  · simpa [Power.text, Cursor.eat, found, proper] using goes _ _
  · simpa [Power.text, Cursor.eat, found, proper] using goes _ ⟨1, 0⟩

theorem readWhole_yields (n : Written) (whole : n.places = []) (unscaled : n.power = none)
    (rest : List Char) (place : Place) :
    Yields (readWhole n.negative (gather 0 n.whole).1 (gather 0 n.whole).2.length ⟨rest, place⟩)
      n.literal? rest := by
  have scaled := readScaled_yields n.negative n.significand n.shift rest place
  simp only [Written.significand, Written.shift, whole, gather] at scaled
  simp only [Written.literal?, Written.isInteger, Written.significand, Written.shift, whole, unscaled,
    gather, readWhole]
  generalize gather 0 n.whole = gathered at scaled ⊢
  obtain ⟨significand, unused⟩ := gathered
  cases unused with
  | nil =>
    simp only [List.length_nil, List.isEmpty_nil, Nat.lt_irrefl, if_false, Option.isNone_none,
      Bool.and_self, not_true_eq_false]
    split_ifs <;> exact ⟨place, rfl⟩
  | cons d unused => simpa using scaled

theorem Written.powerText_ends (n : Written) {rest : List Char} (stop : Stops rest) :
    ∀ c ∈ (n.powerText ++ rest).head?, c.isDigit = false := by
  cases power : n.power with
  | none => simpa [powerText, power] using fun c first => (stop c first).1
  | some p => rcases p.known with mark | mark <;> simp [powerText, power, Power.text, mark]

theorem Written.pointText_ends (n : Written) {rest : List Char} (stop : Stops rest) :
    ∀ c ∈ (n.pointText ++ (n.powerText ++ rest)).head?, c.isDigit = false := by
  unfold pointText
  split_ifs
  · exact n.powerText_ends stop
  · simp

theorem readTail_yields (n : Written) {rest : List Char} (stop : Stops rest) (place : Place) :
    Yields (readTail n.negative (gather 0 n.whole).1 (gather 0 n.whole).2.length
      ⟨n.pointText ++ (n.powerText ++ rest), place⟩) n.literal? rest := by
  have found := digits_append n.fraction (n.powerText_ends stop)
  cases places : n.places with
  | nil =>
    cases power : n.power with
    | none =>
      have goes := readWhole_yields n places power rest place
      cases rest with
      | nil => simpa [readTail, Written.pointText, Written.powerText, places, power] using goes
      | cons c rest =>
        obtain ⟨-, point, lower, upper⟩ := stop c rfl
        simpa [readTail, Written.pointText, Written.powerText, places, power, point, lower, upper]
          using goes
    | some p =>
      have goes := readExponent_yields p stop n.negative n.significand n.shift place
      simp only [Written.literal?, power]
      simp only [Written.significand, Written.shift, places, gather] at goes ⊢
      rcases p.known with mark | mark
      · simpa [readTail, Written.pointText, Written.powerText, places, power, Power.text, mark]
          using goes
      · simpa [readTail, Written.pointText, Written.powerText, places, power, Power.text, mark]
          using goes
  | cons d ds =>
    have point : n.pointText = '.' :: n.places := if_neg (by simp [places])
    rw [point]
    simp only [readTail, List.cons_append, Cursor.eat, found]
    rw [if_neg (by simp [places])]
    cases power : n.power with
    | none =>
      have fractional : n.isInteger = false := by simp [Written.isInteger, places]
      have goes := readScaled_yields n.negative n.significand n.shift rest
      simp only [Written.literal?, power, fractional, Written.powerText, Option.elim_none,
        List.nil_append]
      cases rest with
      | nil => exact goes _
      | cons c rest =>
        obtain ⟨-, -, lower, upper⟩ := stop c rfl
        simpa [lower, upper, Written.significand, Written.shift] using goes _
    | some p =>
      have goes := readExponent_yields p stop n.negative n.significand n.shift
      simp only [Written.literal?, power, Written.powerText, Option.elim_some]
      rcases p.known with mark | mark <;>
        simpa [Power.text, mark, Cursor.eat, Written.significand, Written.shift] using goes _

theorem readMagnitude_yields (n : Written) {rest : List Char} (stop : Stops rest) (place : Place) :
    Yields (readMagnitude n.negative ⟨n.whole ++ (n.pointText ++ (n.powerText ++ rest)), place⟩)
      n.literal? rest := by
  have found := digits_append n.numeric (n.pointText_ends stop) place
  have goes := readTail_yields n stop
  unfold readMagnitude
  rw [found]
  split
  next empty => exact absurd (List.append_eq_nil_iff.mp empty).1 n.proper
  next empty _ => exact absurd (congrArg Prod.fst empty) n.proper
  next zeros _ =>
    have whole : n.whole = _ := congrArg Prod.fst zeros
    have alone := n.plain (by rw [whole]; rfl)
    rw [whole] at alone
    cases alone
  next same _ =>
    obtain ⟨rfl, rfl⟩ := Prod.mk.inj same
    exact goes _

theorem readNumber_yields (n : Written) {rest : List Char} (stop : Stops rest) (place : Place) :
    Yields (readNumber ⟨n.text ++ rest, place⟩) n.literal? rest := by
  have goes := readMagnitude_yields n stop
  obtain ⟨d, ds, whole⟩ := List.exists_cons_of_ne_nil n.proper
  have digit : d.isDigit = true := List.all_eq_true.mp n.numeric d (by simp [whole])
  have minus : d ≠ '-' := by rintro rfl; cases digit
  cases sign : n.negative with
  | false =>
    rw [sign] at goes
    simpa [readNumber, Written.text, sign, whole, minus] using goes place
  | true =>
    rw [sign] at goes
    simpa [readNumber, Written.text, sign, Cursor.eat] using goes _

end Turtle.Json
