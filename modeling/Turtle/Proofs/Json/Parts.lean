import Turtle.Json.Value
import Turtle.Proofs.Json.Number

/-! The parts of arrays and objects in JSON text.
Parts are set off by commas, with white space on both sides of each. A reader that has come to
a part, or to the end, has white space and a comma behind it, but no more. -/
namespace Turtle.Json

structure Blanks where
  chars : List Char
  blank : chars.all Cursor.isBlank

def Blanks.none : Blanks := ⟨[], rfl⟩

structure Item where
  before : Blanks
  body : List Char
  after : Blanks

/-- The inside of an array or object from an item on. The white space in front is that after the
item before; the first item has none but its own. -/
def inside (first : Bool) (blanks : Blanks) : List Item → List Char
  | [] => blanks.chars
  | item :: items =>
    (if first then [] else blanks.chars ++ [','])
      ++ (item.before.chars ++ (item.body ++ inside false item.after items))

/-- A text that begins with something else than white space, a comma or a closing bracket. -/
def Opens (body : List Char) : Prop :=
  ∃ c more, body = c :: more ∧ Cursor.isBlank c = false ∧ c ≠ ',' ∧ c ≠ ']' ∧ c ≠ '}'

theorem skipBlank_append (blanks : Blanks) (rest : List Char)
    (solid : ∀ c ∈ rest.head?, Cursor.isBlank c = false) (place : Place) :
    ∃ after, (⟨blanks.chars ++ rest, place⟩ : Cursor).skipBlank = ⟨rest, after⟩ := by
  obtain ⟨chars, blank⟩ := blanks
  induction chars generalizing place with
  | nil =>
    refine ⟨place, ?_⟩
    cases rest with
    | nil => rfl
    | cons c rest => simp [Cursor.skipBlank, Cursor.skipBlankFrom, solid c rfl]
  | cons c chars ih =>
    simp only [List.all_cons, Bool.and_eq_true] at blank
    simpa [Cursor.skipBlank, Cursor.skipBlankFrom, blank.1] using ih (place.past c) blank.2

theorem skipBlank_cons (blanks : Blanks) (c : Char) (rest : List Char)
    (solid : Cursor.isBlank c = false) (place : Place) :
    ∃ after, (⟨blanks.chars ++ c :: rest, place⟩ : Cursor).skipBlank = ⟨c :: rest, after⟩ :=
  skipBlank_append blanks (c :: rest) (by simpa using solid) place

theorem stops_inside {close : Char} (closing : close = ']' ∨ close = '}') (blanks : Blanks)
    (items : List Item) (rest : List Char) : Stops (inside false blanks items ++ close :: rest) := by
  obtain ⟨chars, blank⟩ := blanks
  intro c first
  cases chars with
  | nil =>
    cases items with
    | nil =>
      simp [inside] at first
      rcases closing with rfl | rfl <;> subst first <;> decide
    | cons item items =>
      simp [inside] at first
      subst first
      decide
  | cons b chars =>
    have same : c = b := by cases items <;> simpa [inside, eq_comm] using first
    simp only [List.all_cons, Bool.and_eq_true, Cursor.isBlank, Bool.or_eq_true,
      decide_eq_true_eq] at blank
    rcases blank.1 with ((rfl | rfl) | rfl) | rfl <;> subst same <;> decide

section Elements

variable (blanks : Blanks) (rest : List Char) (place : Place)

theorem nextElement_end (first : Bool) :
    ∃ after, nextElement? first ⟨inside first blanks [] ++ ']' :: rest, place⟩
      = .ok (none, ⟨']' :: rest, after⟩) := by
  obtain ⟨after, skipped⟩ := skipBlank_cons blanks ']' rest (by decide) place
  exact ⟨after, by simp [nextElement?, inside, skipped]⟩

theorem nextElement_item (first : Bool) (item : Item) (items : List Item) (opens : Opens item.body) :
    ∃ after, nextElement? first ⟨inside first blanks (item :: items) ++ ']' :: rest, place⟩
      = .ok (some ⟨item.body ++ (inside false item.after items ++ ']' :: rest), after⟩,
          ⟨item.body ++ (inside false item.after items ++ ']' :: rest), after⟩) := by
  obtain ⟨c, more, body, solid, comma, bracket, -⟩ := opens
  have skip := skipBlank_append item.before
    (item.body ++ (inside false item.after items ++ ']' :: rest)) (by simp [body, solid])
  cases first with
  | true =>
    obtain ⟨after, skipped⟩ := skip place
    refine ⟨after, ?_⟩
    simp [nextElement?, inside, skipped]
    simp [body]
  | false =>
    obtain ⟨before, reached⟩ := skipBlank_cons blanks ','
      (item.before.chars ++ (item.body ++ (inside false item.after items ++ ']' :: rest)))
      (by decide) place
    obtain ⟨after, skipped⟩ := skip (before.past ',')
    refine ⟨after, ?_⟩
    simp [nextElement?, inside, reached, Cursor.eat, skipped]
    simp [body, bracket]

theorem leaveArray_end (first : Bool) :
    ∃ after, leaveArray ⟨inside first blanks [] ++ ']' :: rest, place⟩ = .ok ⟨rest, after⟩ := by
  obtain ⟨after, skipped⟩ := skipBlank_cons blanks ']' rest (by decide) place
  exact ⟨after.past ']', by simp [leaveArray, inside, skipped, Cursor.eat]⟩

theorem leaveArray_item (item : Item) (items : List Item) :
    ∃ fault, leaveArray ⟨inside false blanks (item :: items) ++ ']' :: rest, place⟩
      = .error fault := by
  obtain ⟨after, skipped⟩ := skipBlank_cons blanks ','
    (item.before.chars ++ (item.body ++ (inside false item.after items ++ ']' :: rest)))
    (by decide) place
  simp [leaveArray, inside, skipped, Cursor.eat]
  split <;> exact ⟨_, rfl⟩

end Elements

end Turtle.Json
