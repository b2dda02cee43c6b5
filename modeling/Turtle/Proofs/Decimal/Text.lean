import Turtle.Proofs.Decimal.Fewest
import Turtle.Proofs.Json.Accuracy
import Turtle.Proofs.Number.Value

/-! Decimal numerals as texts.
A numeral is its parts, and a text gives a finite number only if it is put together from the parts
of one. The number is the nearest one to the rational that is written, whatever its length and
exponent. -/
namespace Turtle

open Format (single)

section Nearest

theorem decimal_eq_infinity {d : Nat} {exponent : Int} (positive : 0 < d) (large : 400 < exponent) :
    single.decimal d exponent = single.infinity := by
  have limit : single.nearest (1 * tenTo 400 * single.unit) 1 = single.infinity := by decide +kernel
  have bounded : single.decimal d exponent ≤ single.infinity := single.nearest_le _ _
  apply Nat.le_antisymm bounded
  rw [← limit, Format.decimal, tens_up (by omega)]
  apply Format.nearest_le_nearest (by decide) Nat.one_pos Nat.one_pos
  have power : tenTo 400 ≤ tenTo exponent.natAbs := Scales.tenTo_le (by omega)
  gcongr
  exact positive

theorem decimal_eq_zero_of_log2 {d : Nat} {exponent : Int} (down : exponent < 0)
    (small : d.log2 + 1200 < 3 * exponent.natAbs) : single.decimal d exponent = 0 := by
  have half : single.nearest 1 2 = 0 := by decide
  have unit : single.unit = twoTo 149 := rfl
  apply Nat.eq_zero_of_le_zero
  rw [← half, Format.decimal, tens_down down, Nat.mul_one]
  apply Format.nearest_le_nearest (by decide) (tenTo_pos _) (by decide)
  calc d * single.unit * 2 ≤ twoTo (d.log2 + 1) * twoTo 149 * twoTo 1 := by
        rw [unit]
        gcongr
        · exact Nat.le_of_lt (lt_twoTo_log2 d)
        · decide
    _ = twoTo (d.log2 + 1 + 149 + 1) := by simp only [twoTo_add]
    _ ≤ twoTo (3 * exponent.natAbs) := twoTo_le (by omega)
    _ ≤ 1 * tenTo exponent.natAbs := by
        rw [Nat.one_mul]
        exact twoTo_le_tenTo _

theorem decimal_zero (exponent : Int) : single.decimal 0 exponent = 0 := by
  simpa [Format.decimal] using
    Format.nearest_quanta (F := single) (by decide) (tens_pos exponent).2 (Nat.zero_le _)

/-- The bounds beyond which a numeral is not computed leave the nearest single as it is. -/
theorem Numeral.nearest_eq (m : Numeral) : (m.nearest : Single)
    = .signed m.negative (single.decimal m.significand m.exponent) (single.nearest_le _ _) := by
  obtain ⟨negative, significand, exponent⟩ := m
  unfold Numeral.nearest
  dsimp only
  split_ifs with nothing up large small
  · simp only [nothing, decimal_zero, Number.zero]
  · have top := decimal_eq_infinity (Nat.pos_of_ne_zero nothing) large
    simp only [top, Number.infinite]
  · have same : exponent.toNat = exponent.natAbs := by omega
    simp only [Number.ofRatio, Number.nearest, Format.decimal, tens_up up, same]
  · have none := decimal_eq_zero_of_log2 (Int.not_le.mp up) small
    simp only [none, Number.zero]
  · have down := tens_down (Int.not_le.mp up)
    simp only [Number.ofRatio, Number.nearest, Format.decimal, down, Nat.mul_one]

namespace Numeral

/-- The rational a numeral stands for. -/
def rational (m : Numeral) : ℚ := Number.sign m.negative * m.magnitude

variable (m : Numeral)

theorem rounded_nearest : (m.nearest : Single).Rounded m.rational := by
  have unit := single.unit_cast_pos.ne'
  refine ⟨m.negative, _, _, (tens_pos m.exponent).2, m.nearest_eq, ?_⟩
  rw [rational, magnitude, ← tens_div]
  push_cast
  field_simp

theorem isNegative_nearest : (m.nearest : Single).isNegative = m.negative := by
  rw [nearest_eq]
  rfl

/-- What is written in front of a number: nothing, or a sign that is true for minus. -/
def signText (sign : Option Bool) : List Char :=
  sign.elim [] fun minus => [if minus then '-' else '+']

end Numeral

/-- A decimal numeral: digits around a point or without one, at least one of them, and an exponent
or none. -/
structure Decimal where
  sign : Option Bool
  whole : List Char
  places : Option (List Char)
  power : Option Json.Power
  numeric : whole.all Char.isDigit
  fraction : (places.getD []).all Char.isDigit
  proper : whole ≠ [] ∨ places.getD [] ≠ []

namespace Decimal

def negative (d : Decimal) : Bool := d.sign = some true

def pointText (d : Decimal) : List Char := d.places.elim [] ('.' :: ·)

def powerText (d : Decimal) : List Char := d.power.elim [] Json.Power.text

/-- A numeral without its sign. -/
def body (d : Decimal) : List Char := d.whole ++ (d.pointText ++ d.powerText)

def text (d : Decimal) : List Char := Numeral.signText d.sign ++ d.body

def numeral (d : Decimal) : Numeral :=
  ⟨d.negative, Numeral.valueFrom (Numeral.value d.whole) (d.places.getD []),
    d.power.elim 0 Json.Power.value - (d.places.getD []).length⟩

/-- The rational that is written. -/
def value (d : Decimal) : ℚ := d.numeral.rational

end Decimal

end Nearest

section Reading

open Numeral

variable {digits rest text : List Char} {negative : Bool}

theorem splitSign_unsigned (plain : ∀ c ∈ text.head?, c ≠ '-' ∧ c ≠ '+') :
    splitSign text = (false, text) := by
  unfold splitSign
  split
  · exact absurd rfl (plain _ rfl).1
  · exact absurd rfl (plain _ rfl).2
  · rfl

theorem mem_signText {sign : Option Bool} {c : Char} (inside : c ∈ signText sign) :
    c = '-' ∨ c = '+' := by
  rcases sign with _ | _ | _ <;> simp_all [signText]

theorem ne_sign_of_isDigit {c : Char} (digit : c.isDigit = true) : c ≠ '-' ∧ c ≠ '+' := by
  constructor <;> rintro rfl <;> cases digit

theorem toLower_of_isDigit {c : Char} (digit : c.isDigit = true) : c.toLower = c := by
  simp only [Char.isDigit, Bool.and_eq_true, decide_eq_true_eq] at digit
  exact dif_neg fun upper => absurd (UInt32.le_trans upper.1 digit.2) (by decide)

theorem splitSign_signText (sign : Option Bool) (plain : ∀ c ∈ rest.head?, c ≠ '-' ∧ c ≠ '+') :
    splitSign (signText sign ++ rest) = (decide (sign = some true), rest) := by
  rcases sign with _ | _ | _
  · exact splitSign_unsigned plain
  · rfl
  · rfl

/-- A sign is written where one is read, or nothing is. -/
theorem eq_signText_of_splitSign (split : splitSign text = (negative, rest)) :
    ∃ sign, text = signText sign ++ rest ∧ negative = decide (sign = some true) := by
  unfold splitSign at split
  split at split <;> cases split
  · exact ⟨some true, rfl, rfl⟩
  · exact ⟨some false, rfl, rfl⟩
  · exact ⟨none, rfl, rfl⟩

namespace Json.Power

theorem exponentPart_text (p : Power) : exponentPart p.text = some p.value := by
  obtain ⟨mark, sign, digits, known, proper, numeric⟩ := p
  have split : splitSign (signText sign ++ digits) = (decide (sign = some true), digits) := by
    obtain ⟨d, ds, rfl⟩ := List.exists_cons_of_ne_nil proper
    have digit : d.isDigit = true := List.all_eq_true.mp numeric d List.mem_cons_self
    exact splitSign_signText sign (by simpa using ne_sign_of_isDigit digit)
  change exponentPart (mark :: (signText sign ++ digits)) = _
  simp only [exponentPart, split, known, proper, numeric, ne_eq, not_false_eq_true, and_self,
    if_true, Power.value, Power.downward]
  rfl

end Json.Power

theorem exists_power_of_exponentPart {exponent : Int} (read : exponentPart text = some exponent) :
    ∃ power : Option Json.Power, text = power.elim [] Json.Power.text := by
  cases text with
  | nil => exact ⟨none, rfl⟩
  | cons mark rest =>
    unfold exponentPart at read
    dsimp only at read
    split at read
    · rename_i shape
      obtain ⟨known, proper, numeric⟩ := shape
      have split : splitSign rest = ((splitSign rest).1, (splitSign rest).2) := rfl
      obtain ⟨sign, same, -⟩ := eq_signText_of_splitSign split
      exact ⟨some ⟨mark, sign, _, known, proper, numeric⟩, congrArg (mark :: ·) same⟩
    · cases read

namespace Decimal

variable (d : Decimal)

theorem powerText_head : ∀ c ∈ d.powerText.head?, c = 'e' ∨ c = 'E' := by
  unfold powerText
  cases d.power with
  | none => simp
  | some p => simpa [Json.Power.text] using p.known

theorem exponentPart_powerText :
    exponentPart d.powerText = some (d.power.elim 0 Json.Power.value) := by
  unfold powerText
  cases d.power with
  | none => rfl
  | some p => exact p.exponentPart_text

theorem fraction_pointText :
    Numeral.fraction (d.pointText ++ d.powerText) = (d.places.getD [], d.powerText) := by
  have ends := d.powerText_head
  have numeric := d.fraction
  unfold pointText
  revert numeric
  cases d.places with
  | none =>
    intro _
    cases tail : d.powerText with
    | nil => rfl
    | cons c tail =>
      rw [tail] at ends
      rcases ends c rfl with rfl | rfl <;> rfl
  | some places =>
    intro numeric
    refine Json.span_append numeric fun c first => ?_
    rcases ends c first with rfl | rfl <;> rfl

/-- Without its sign a numeral begins with a digit or a point. -/
theorem body_head : ∃ c rest, d.body = c :: rest ∧ (c.isDigit = true ∨ c = '.') := by
  unfold body pointText
  cases whole : d.whole with
  | nil =>
    cases places : d.places with
    | none => simpa [whole, places] using d.proper
    | some places => exact ⟨'.', _, rfl, .inr rfl⟩
  | cons c rest =>
    have digit := List.all_eq_true.mp d.numeric c (by simp [whole])
    exact ⟨c, _, rfl, .inl digit⟩

theorem splitSign_text : splitSign d.text = (d.negative, d.body) := by
  obtain ⟨c, rest, body, start⟩ := d.body_head
  refine splitSign_signText d.sign ?_
  rw [body]
  rintro _ ⟨⟩
  rcases start with digit | rfl
  · exact ne_sign_of_isDigit digit
  · decide

theorem exists_digit : ∃ c ∈ d.text, c.isDigit = true := by
  have first {digits : List Char} (proper : digits ≠ []) (numeric : digits.all Char.isDigit)
      (inside : digits ⊆ d.text) : ∃ c ∈ d.text, c.isDigit = true := by
    obtain ⟨c, rest, rfl⟩ := List.exists_cons_of_ne_nil proper
    exact ⟨c, inside List.mem_cons_self, List.all_eq_true.mp numeric c List.mem_cons_self⟩
  rcases d.proper with whole | places
  · exact first whole d.numeric fun c inside => by simp [text, body, inside]
  · refine first places d.fraction fun c inside => ?_
    have point : c ∈ d.pointText := by
      unfold pointText
      cases same : d.places <;> simp_all
    simp [text, body, point]

/-- A character of a numeral. -/
def IsMark (c : Char) : Prop := c.isDigit = true ∨ c ∈ ['+', '-', '.', 'e', 'E']

theorem isMark_of_mem_signText {sign : Option Bool} {c : Char} (inside : c ∈ signText sign) :
    IsMark c := by
  rcases mem_signText inside with rfl | rfl <;> exact .inr (by decide)

theorem isMark_of_mem_text : ∀ c ∈ d.text, IsMark c := by
  have digits {digits : List Char} (numeric : digits.all Char.isDigit) : ∀ c ∈ digits, IsMark c :=
    fun c inside => .inl (List.all_eq_true.mp numeric c inside)
  have point : ∀ c ∈ d.pointText, IsMark c := by
    have numeric := digits d.fraction
    unfold pointText
    cases same : d.places with
    | none => nofun
    | some places => simpa [same, IsMark] using numeric
  have power : ∀ c ∈ d.powerText, IsMark c := by
    unfold powerText
    cases d.power with
    | none => nofun
    | some p =>
      have mark : IsMark p.mark := .inr (by rcases p.known with same | same <;> simp [same])
      have sign : ∀ c ∈ signText p.sign, IsMark c := fun c => isMark_of_mem_signText
      have tail : ∀ c ∈ p.mark :: (signText p.sign ++ p.digits), IsMark c := by
        simpa only [List.forall_mem_cons, List.forall_mem_append] using
          ⟨mark, sign, digits p.numeric⟩
      exact tail
  simp only [text, body, List.forall_mem_append]
  exact ⟨fun c => isMark_of_mem_signText, digits d.numeric, point, power⟩

theorem ofWord?_body : (Number.ofWord? negative d.body : Option Single) = none := by
  obtain ⟨c, rest, body, start⟩ := d.body_head
  have lower : c.toLower = c := by
    rcases start with digit | rfl
    · exact toLower_of_isDigit digit
    · rfl
  have other {l : Char} (word : List Char) (proper : l.isDigit = false ∧ l ≠ '.') :
      String.ofList (d.body.map Char.toLower) ≠ String.ofList (l :: word) := by
    intro same
    have heads := String.ofList_inj.mp same
    rw [body, List.map_cons, lower, List.cons.injEq] at heads
    obtain ⟨rfl, -⟩ := heads
    rcases start with digit | point
    · exact absurd digit (by simp [proper.1])
    · exact proper.2 point
  unfold Number.ofWord?
  split
  next same => exact absurd same (other (l := 'i') "nf".toList (by decide))
  next same => exact absurd same (other (l := 'i') "nfinity".toList (by decide))
  next same => exact absurd same (other (l := 'n') "an".toList (by decide))
  next => rfl

theorem unsigned?_body : unsigned? d.negative d.body = some d.numeral := by
  have stop : ∀ c ∈ (d.pointText ++ d.powerText).head?, c.isDigit = false := by
    have ends := d.powerText_head
    unfold pointText
    cases d.places with
    | none =>
      intro c first
      rcases ends c first with rfl | rfl <;> rfl
    | some places =>
      rintro _ ⟨⟩
      rfl
  have span : d.body.span Char.isDigit = (d.whole, d.pointText ++ d.powerText) :=
    Json.span_append d.numeric stop
  have some : ¬(d.whole = [] ∧ d.places.getD [] = []) := not_and_or.mpr d.proper
  simp only [unsigned?, span, d.fraction_pointText, d.exponentPart_powerText, some, if_false,
    Option.map_some, numeral]

/-- A numeral is read as the single nearest to it. -/
theorem ofText?_text : Number.ofText? d.text = some (d.numeral.nearest : Single) := by
  simp only [Number.ofText?, splitSign_text, ofWord?_body, unsigned?_body, Option.map_some]
  rfl

end Decimal

theorem eq_append_of_span (span : text.span Char.isDigit = (digits, rest)) :
    text = digits ++ rest ∧ digits.all Char.isDigit := by
  rw [List.span_eq_takeWhile_dropWhile] at span
  cases span
  exact ⟨List.takeWhile_append_dropWhile.symm, List.all_takeWhile⟩

/-- A point is written where digits are read after one. -/
theorem exists_places_of_fraction (split : Numeral.fraction text = (digits, rest)) :
    ∃ places : Option (List Char), text = places.elim [] ('.' :: ·) ++ rest ∧
      places.getD [] = digits ∧ digits.all Char.isDigit := by
  unfold Numeral.fraction at split
  split at split
  · obtain ⟨same, numeric⟩ := eq_append_of_span split
    exact ⟨some digits, congrArg ('.' :: ·) same, rfl, numeric⟩
  · cases split
    exact ⟨none, rfl, rfl, rfl⟩

theorem exists_decimal_of_unsigned? {m : Numeral} (sign : Option Bool)
    (read : unsigned? negative text = some m) : ∃ d : Decimal, d.text = signText sign ++ text := by
  rcases span : text.span Char.isDigit with ⟨whole, more⟩
  rcases point : Numeral.fraction more with ⟨digits, rest⟩
  obtain ⟨first, numeric⟩ := eq_append_of_span span
  obtain ⟨places, second, rfl, fraction⟩ := exists_places_of_fraction point
  simp only [unsigned?, span, point] at read
  split at read
  · cases read
  · rename_i some
    obtain ⟨exponent, tail, -⟩ := Option.map_eq_some_iff.mp read
    obtain ⟨power, third⟩ := exists_power_of_exponentPart tail
    refine ⟨⟨sign, whole, places, power, numeric, fraction, not_and_or.mp some⟩, ?_⟩
    rw [first, second, third]
    rfl

/-- A text of a finite number is that of a numeral. -/
theorem exists_decimal_of_ofText? {x : Single} (read : Number.ofText? text = some x)
    (finite : x.isFinite = true) : ∃ d : Decimal, d.text = text := by
  have split : splitSign text = ((splitSign text).1, (splitSign text).2) := rfl
  obtain ⟨sign, same, -⟩ := eq_signText_of_splitSign split
  unfold Number.ofText? at read
  dsimp only at read
  cases word : (Number.ofWord? (splitSign text).1 (splitSign text).2 : Option Single) with
  | some y =>
    simp only [word, Option.orElse_some, Option.some.injEq] at read
    subst read
    unfold Number.ofWord? at word
    split at word <;> cases word <;> cases finite
  | none =>
    simp only [word, Option.orElse_none] at read
    obtain ⟨m, unsigned, -⟩ := Option.map_eq_some_iff.mp read
    obtain ⟨d, written⟩ := exists_decimal_of_unsigned? sign unsigned
    exact ⟨d, written.trans same.symm⟩

end Reading

end Turtle
