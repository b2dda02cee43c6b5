import Turtle.Proofs.Decimal.Text
import Turtle.Proofs.Forms
import Turtle.Proofs.Layers

/-! One text for a speed, in a file or in the environment.
A number of JSON text is a numeral too. In the environment it is rounded once; in a file it is rounded
to a double first, and the reader of JSON text is a little off even there. -/
namespace Turtle

open Json
open Format (double single)

namespace Json

theorem isBlank_of_numeric {digits : List Char} (numeric : digits.all Char.isDigit) :
    ∀ c ∈ digits, Text.isBlank c = false := by
  intro c inside
  have digit := List.all_eq_true.mp numeric c inside
  simp only [Char.isDigit, Bool.and_eq_true, decide_eq_true_eq] at digit
  have low : 48 ≤ c.toNat := digit.1
  have high : c.toNat ≤ 57 := digit.2
  simp only [Text.isBlank, Bool.or_eq_false_iff, Bool.and_eq_false_iff, decide_eq_false_iff_not,
    beq_eq_false_iff_ne]
  omega

theorem Power.solid_text (p : Power) : ∀ c ∈ p.text, Text.isBlank c = false := by
  obtain ⟨mark, sign, digits, known, proper, numeric⟩ := p
  have solid := isBlank_of_numeric numeric
  have marks : Text.isBlank mark = false := by rcases known with rfl | rfl <;> decide
  have signs : ∀ minus : Bool, Text.isBlank (if minus then '-' else '+') = false := by decide
  cases sign with
  | none => simpa [Power.text, marks] using solid
  | some minus => simpa [Power.text, marks, signs minus] using solid

namespace Written

theorem solid_text (n : Written) : ∀ c ∈ n.text, Text.isBlank c = false := by
  have whole := isBlank_of_numeric n.numeric
  have places := isBlank_of_numeric n.fraction
  have minus : Text.isBlank '-' = false := by decide
  have point : Text.isBlank '.' = false := by decide
  have power : ∀ c ∈ n.powerText, Text.isBlank c = false := by
    unfold powerText
    cases n.power with
    | none => simp
    | some p => exact p.solid_text
  unfold text pointText
  simp only [List.forall_mem_append]
  refine ⟨?_, whole, ?_, power⟩
  · split_ifs <;> simp [minus]
  · split_ifs
    · simp
    · simpa [point] using places

theorem trim_text (n : Written) : Text.trim n.text = n.text := by
  have solid := n.solid_text
  have kept {text : List Char} (solid : ∀ c ∈ text, Text.isBlank c = false) :
      text.dropWhile Text.isBlank = text := by
    cases text with
    | nil => rfl
    | cons c text => simp [solid c List.mem_cons_self]
  rw [Text.trim, kept solid, kept (by simpa using solid), List.reverse_reverse]

/-- A number of JSON text as a numeral of any text. -/
def decimal (n : Written) : Decimal where
  sign := if n.negative then some true else none
  whole := n.whole
  places := if n.places = [] then none else some n.places
  power := n.power
  numeric := n.numeric
  fraction := by
    split_ifs
    · rfl
    · exact n.fraction
  proper := .inl n.proper

theorem text_decimal (n : Written) : n.decimal.text = n.text := by
  unfold text pointText
  cases sign : n.negative <;> by_cases whole : n.places = [] <;>
    simp [Decimal.text, Decimal.body, Decimal.pointText, decimal, Numeral.signText, sign, whole] <;>
    rfl

theorem numeral_decimal (n : Written) : n.decimal.numeral = n.numeral := by
  have places : n.decimal.places.getD [] = n.places := by
    by_cases whole : n.places = [] <;> simp [decimal, whole]
  have sign : n.decimal.negative = n.negative := by
    cases sign : n.negative <;> simp [Decimal.negative, decimal, sign]
  simp only [Decimal.numeral, places, sign]
  rfl

theorem ofText?_text (n : Written) : Number.ofText? n.text = some (n.numeral.nearest : Single) := by
  rw [← n.text_decimal, n.decimal.ofText?_text, n.numeral_decimal]

end Written

end Json

namespace Config

/-- Two singles of one sign that are the same or next to each other. -/
def Beside (x y : Single) : Prop := ∃ negative a b ha hb,
  x = .signed negative a ha ∧ y = .signed negative b hb ∧ a ≤ b + 1 ∧ b ≤ a + 1

/-- A file that gives a speed and nothing else. -/
def speedFile (text : List Char) : List Char :=
  '{' :: '"' :: (Field.moveSpeed.name.toList ++ '"' :: ':' :: ' ' :: (text ++ ['}']))

variable {n : Written} {environment bare : Environment}

theorem ofJson_speedFile {x : Single} (single : n.single? = some x) :
    ofJson (speedFile n.text) = .ok { standard with moveSpeed := x } := by
  let m : Member := ⟨.none, Field.letters .moveSpeed, .none, ⟨[' '], rfl⟩, n.text, .none⟩
  have text : objectFile .none .none [m] [] = speedFile n.text := by
    simp [objectFile, objectText, inside, Member.item, m, Field.spelled_letters, Blanks.none,
      speedFile]
  have gives : List.Forall₂ Gives [m] [.moveSpeed x] :=
    .cons ⟨.moveSpeed, Field.fieldOf?_letters rfl, .speed ⟨n, rfl, single⟩⟩ .nil
  rw [← text]
  exact ofJson_object .none .none [] gives (List.nodup_singleton _)

theorem layered_of_unset (unset : ∀ name ∈ overriding, bare name = none) (c : Config) :
    layered bare c = c := by
  have first := unset "TURTLE_POOL_CAPACITY" (by decide)
  have second := unset "TURTLE_MOVE_SPEED" (by decide)
  have third := unset "TURTLE_TARGET_TPS" (by decide)
  simp [layered, chosen, textOf?, first, second, third]

/-- A speed in a file and the same text in the environment come to the same single or to neighbours.
They come to the same one if the number is whole and fits a word, or is not very close to the middle
between two singles. -/
theorem speed_of_either_source (moderate : Moderate n) (tame : Tame n)
    (unset : ∀ name ∈ overriding, bare name = none)
    (legible : ∀ name ∈ overriding, Legible environment name)
    (set : textOf? environment "TURTLE_MOVE_SPEED" = some n.text) :
    ∃ filed c c', ofJson (speedFile n.text) = .ok filed ∧ filed.applyOverrides bare = (c, none) ∧
      standard.applyOverrides environment = (c', none) ∧ Beside c.moveSpeed c'.moveSpeed ∧
      (IsWord n ∨ ¬Borders n.numeral.magnitude → c.moveSpeed = c'.moveSpeed) := by
  obtain ⟨code, bounded, found, nearly, whole⟩ := moderate.single?
  obtain ⟨below, above, exact⟩ := nearly tame
  have plain : ∀ name ∈ overriding, Legible bare name := by
    intro name inside value same
    rw [unset name inside] at same
    cases same
  have speed : (layered environment standard).moveSpeed = n.numeral.nearest := by
    simp only [layered, chosen, set, Option.bind_some, n.trim_text, n.ofText?_text,
      Option.getD_some]
  refine ⟨_, _, _, ofJson_speedFile found, applyOverrides_of_legible plain _,
    applyOverrides_of_legible legible _, ?_, ?_⟩
  all_goals rw [layered_of_unset unset, speed, Numeral.nearest_eq]
  · exact ⟨n.negative, _, _, bounded, single.nearest_le _ _, rfl, rfl, below, above⟩
  · intro sharp
    have same := sharp.elim whole exact
    subst same
    rfl

/-- An environment that sets the speed and nothing else. -/
def onlySpeed (text : String) : Environment := fun name =>
  if name = "TURTLE_MOVE_SPEED" then some (text.toList.map Char.toUInt8) else none

theorem speed_of_seven : ∃ filed c c', ofJson "\x7b\"move_speed\": 7\x7d".toList = .ok filed ∧
    filed.applyOverrides (fun _ => none) = (c, none) ∧
    standard.applyOverrides (onlySpeed "7") = (c', none) ∧ c.moveSpeed = c'.moveSpeed := by
  have legible : ∀ name ∈ overriding, Legible (onlySpeed "7") name := by
    intro name _ value same
    unfold onlySpeed at same
    split_ifs at same
    cases same
    exact ⟨['7'], by decide⟩
  obtain ⟨filed, c, c', read, bare, set, -, same⟩ := speed_of_either_source seven_moderate
    (fun p none => by cases none) (fun _ _ => rfl) legible (by decide)
  exact ⟨filed, c, c', read, bare, set, same (.inl ⟨by decide, nofun⟩)⟩

theorem speed_differs_between_sources :
    (∃ filed c c', ofJson "\x7b\"move_speed\": 16777217.0000000001\x7d".toList = .ok filed ∧
      filed.applyOverrides (fun _ => none) = (c, none) ∧
      standard.applyOverrides (onlySpeed "16777217.0000000001") = (c', none) ∧
      c.moveSpeed = .ofBits 0x4B800000 ∧ c'.moveSpeed = .ofBits 0x4B800001) ∧
    (∃ fault, ofJson "\x7b\"move_speed\": 1e400\x7d".toList = .error fault) ∧
    ∃ c', standard.applyOverrides (onlySpeed "1e400") = (c', none) ∧
      c'.moveSpeed = .infinite false := by
  let even : Config := { standard with moveSpeed := .ofBits 0x4B800000 }
  let odd : Config := { standard with moveSpeed := .ofBits 0x4B800001 }
  let unbounded : Config := { standard with moveSpeed := .infinite false }
  refine ⟨⟨even, even, odd, ?_, ?_, ?_, rfl, rfl⟩, fails_of_toOption ?_, unbounded, ?_, rfl⟩
  all_goals decide +kernel

end Config

end Turtle
