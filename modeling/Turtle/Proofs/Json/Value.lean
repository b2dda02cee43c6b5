import Turtle.Proofs.Json.Letters
import Turtle.Proofs.Json.Parts
import Turtle.Proofs.Json.Scaling

/-! The values of JSON text, and what the readers of single kinds make of them.
A reader either fails or takes exactly the text of the value, whatever kind of value stands there. -/
namespace Turtle.Json

/-- A member of an object. Its value is a text. -/
structure Member where
  before : Blanks
  name : List Letter
  gap : Blanks
  lead : Blanks
  body : List Char
  after : Blanks

def Member.item (m : Member) : Item where
  before := m.before
  body := '"' :: (spelled m.name ++ (m.gap.chars ++ ':' :: (m.lead.chars ++ m.body)))
  after := m.after

def arrayText (blanks : Blanks) (items : List Item) : List Char :=
  '[' :: (inside true blanks items ++ [']'])

def objectText (blanks : Blanks) (members : List Member) : List Char :=
  '{' :: (inside true blanks (members.map Member.item) ++ ['}'])

inductive IsValue : List Char → Prop where
  | number (n : Written) : IsValue n.text
  | word {w : String} (known : w ∈ ["null", "true", "false"]) : IsValue w.toList
  | text (letters : List Letter) : IsValue ('"' :: spelled letters)
  | array (blanks : Blanks) (items : List Item) (values : ∀ item ∈ items, IsValue item.body) :
    IsValue (arrayText blanks items)
  | object (blanks : Blanks) (members : List Member) (values : ∀ m ∈ members, IsValue m.body) :
    IsValue (objectText blanks members)

theorem Written.head_text (n : Written) :
    ∃ c more, n.text = c :: more ∧ (c = '-' ∨ c.isDigit = true) := by
  obtain ⟨d, ds, whole⟩ := List.exists_cons_of_ne_nil n.proper
  have digit : d.isDigit = true := List.all_eq_true.mp n.numeric d (by simp [whole])
  cases sign : n.negative with
  | true => exact ⟨'-', n.whole ++ (n.pointText ++ n.powerText), by simp [text, sign], .inl rfl⟩
  | false => exact ⟨d, ds ++ (n.pointText ++ n.powerText), by simp [text, sign, whole], .inr digit⟩

theorem solid_of_isDigit {c : Char} (digit : c.isDigit = true) :
    Cursor.isBlank c = false ∧ c ≠ ',' ∧ c ≠ ']' ∧ c ≠ '}' := by
  simp only [Cursor.isBlank, Bool.or_eq_false_iff, decide_eq_false_iff_not, and_assoc]
  refine ⟨?_, ?_, ?_, ?_, ?_, ?_, ?_⟩ <;> (rintro rfl; cases digit)

theorem IsValue.kinds {v : List Char} (value : IsValue v) :
    (∃ n : Written, v = n.text) ∨
      (∃ blanks items, v = arrayText blanks items ∧ ∀ item ∈ items, IsValue item.body) ∨
        ∃ c more, v = c :: more ∧ c ∈ ['n', 't', 'f', '"', '{'] := by
  cases value with
  | number n => exact .inl ⟨n, rfl⟩
  | array blanks items values => exact .inr (.inl ⟨blanks, items, rfl, values⟩)
  | text letters => exact .inr (.inr ⟨'"', _, rfl, by decide⟩)
  | object blanks members values => exact .inr (.inr ⟨'{', _, rfl, by decide⟩)
  | word known =>
    simp only [List.mem_cons, List.not_mem_nil, or_false] at known
    rcases known with rfl | rfl | rfl
    · exact .inr (.inr ⟨'n', _, rfl, by decide⟩)
    · exact .inr (.inr ⟨'t', _, rfl, by decide⟩)
    · exact .inr (.inr ⟨'f', _, rfl, by decide⟩)

theorem IsValue.opens {v : List Char} (value : IsValue v) : Opens v := by
  rcases value.kinds with ⟨n, rfl⟩ | ⟨blanks, items, rfl, -⟩ | ⟨c, more, rfl, other⟩
  · obtain ⟨c, more, text, rfl | digit⟩ := n.head_text
    · exact ⟨'-', more, text, by decide⟩
    · exact ⟨c, more, text, solid_of_isDigit digit⟩
  · exact ⟨'[', _, rfl, by decide⟩
  · have solid : ∀ c ∈ ['n', 't', 'f', '"', '{'],
        Cursor.isBlank c = false ∧ c ≠ ',' ∧ c ≠ ']' ∧ c ≠ '}' := by simp [Cursor.isBlank]
    exact ⟨c, more, rfl, solid c other⟩

theorem Yields.bind {α β : Type} {reading : Result (α × Cursor)} {a? : Option α}
    {middle rest : List Char} (first : Yields reading a? middle)
    {next : α × Cursor → Result (β × Cursor)} {next? : α → Option β}
    (second : ∀ a place, Yields (next (a, ⟨middle, place⟩)) (next? a) rest) :
    Yields (reading >>= next) (a?.bind next?) rest := by
  cases a? with
  | none =>
    obtain ⟨fault, rfl⟩ := first
    exact ⟨fault, rfl⟩
  | some a =>
    obtain ⟨place, rfl⟩ := first
    exact second a place

theorem Yields.bind_none {α β : Type} {reading : Result (α × Cursor)} {a? : Option α}
    {middle rest : List Char} (first : Yields reading a? middle)
    {next : α × Cursor → Result (β × Cursor)}
    (second : ∀ a place, Yields (next (a, ⟨middle, place⟩)) none rest) :
    Yields (reading >>= next) none rest := by
  have none : a?.bind (fun _ => (none : Option β)) = none := by cases a? <;> rfl
  exact none ▸ first.bind second

theorem Yields.failed {α β : Type} {reading : Result (α × Cursor)} {middle rest : List Char}
    (first : Yields reading none middle) (next : α × Cursor → Result (β × Cursor)) :
    Yields (reading >>= next) none rest := by
  obtain ⟨fault, rfl⟩ := first
  exact ⟨fault, rfl⟩

theorem Yields.within {α : Type} {reading : Result (α × Cursor)} {a? : Option α} {rest : List Char}
    (reads : Yields reading a? rest) (step : Step) : Yields (within step reading) a? rest := by
  cases a? with
  | none =>
    obtain ⟨fault, rfl⟩ := reads
    exact ⟨_, rfl⟩
  | some a =>
    obtain ⟨place, rfl⟩ := reads
    exact ⟨place, rfl⟩

theorem readMismatch_fails {α : Type} (wanted : String) (c : Cursor) :
    ∃ fault, (readMismatch wanted c : Result α) = .error fault := by
  have always {β : Type} (reading : Result β) {next : β → Result α}
      (fails : ∀ b, ∃ fault, next b = .error fault) :
      ∃ fault, (reading >>= next) = .error fault := by
    cases reading with
    | error fault => exact ⟨fault, rfl⟩
    | ok b => exact fails b
  unfold readMismatch
  dsimp only
  split
  · exact ⟨_, rfl⟩
  · split_ifs
    all_goals first
      | exact ⟨_, rfl⟩
      | exact always _ fun _ => ⟨_, rfl⟩

/-- A literal as a whole number of a width. -/
def Literal.whole? (width : Width) : Literal → Option Nat
  | integer n => if 0 ≤ n ∧ n < width.limit then some n.toNat else none
  | real _ => none

theorem skipBlank_opens (blanks : Blanks) {body : List Char} (opens : Opens body) (rest : List Char)
    (place : Place) : ∃ after,
      (⟨blanks.chars ++ (body ++ rest), place⟩ : Cursor).skipBlank = ⟨body ++ rest, after⟩ := by
  obtain ⟨c, more, text, solid, -⟩ := opens
  exact skipBlank_append blanks _ (by simp [text, solid]) place

section Readers

variable (blanks : Blanks) {rest : List Char} (place : Place)

theorem readLiteral_number (stop : Stops rest) (n : Written) (wanted : String) :
    Yields (readLiteral wanted ⟨blanks.chars ++ (n.text ++ rest), place⟩) n.literal? rest := by
  obtain ⟨c, more, text, first⟩ := n.head_text
  obtain ⟨after, skipped⟩ := skipBlank_opens blanks (IsValue.number n).opens rest place
  have goes := readNumber_yields n stop after
  simp only [readLiteral, skipped]
  simpa [text, first] using goes

/-- A value is a number, or no reader of numbers takes it. -/
theorem readLiteral_yields {v : List Char} (value : IsValue v) (wanted : String) :
    ∃ l?, ∀ (blanks : Blanks) {rest : List Char}, Stops rest → ∀ place,
      Yields (readLiteral wanted ⟨blanks.chars ++ (v ++ rest), place⟩) l? rest := by
  have refused {c : Char} {more : List Char} (same : v = c :: more)
      (other : ¬(c = '-' ∨ c.isDigit = true)) (blanks : Blanks) (rest : List Char) (place : Place) :
      Yields (readLiteral wanted ⟨blanks.chars ++ (v ++ rest), place⟩) none rest := by
    obtain ⟨after, skipped⟩ := skipBlank_opens blanks value.opens rest place
    obtain ⟨fault, fails⟩ := readMismatch_fails (α := Literal × Cursor) wanted ⟨v ++ rest, after⟩
    refine ⟨fault, ?_⟩
    rw [← fails]
    simp only [readLiteral, skipped]
    simp only [same, List.cons_append, if_neg other]
  rcases value.kinds with ⟨n, rfl⟩ | ⟨_, _, same, -⟩ | ⟨c, more, same, other⟩
  · exact ⟨_, fun blanks _ stop place => readLiteral_number blanks place stop n wanted⟩
  · exact ⟨none, fun blanks rest _ place => refused same (by decide) blanks rest place⟩
  · have others : ∀ c ∈ ['n', 't', 'f', '"', '{'], ¬(c = '-' ∨ c.isDigit = true) := by simp
    exact ⟨none, fun blanks rest _ place => refused same (others c other) blanks rest place⟩

theorem readWholeNumber_of_literal {c : Cursor} {l? : Option Literal} (width : Width)
    (reads : Yields (readLiteral width.name c) l? rest) :
    Yields (readWholeNumber width c) (l?.bind (Literal.whole? width)) rest := by
  apply reads.bind
  intro literal place
  cases literal with
  | integer n =>
    simp only [Literal.whole?]
    split_ifs
    · exact ⟨place, rfl⟩
    · exact ⟨_, rfl⟩
  | real x => exact ⟨_, rfl⟩

theorem readSingle_of_literal {c : Cursor} {l? : Option Literal}
    (reads : Yields (readLiteral "f32" c) l? rest) :
    Yields (readSingle c) (l?.map Literal.single) rest := by
  rw [Option.map_eq_bind]
  apply reads.bind
  intro literal place
  cases literal <;> exact ⟨place, rfl⟩

end Readers

/-- A text from which a reader gets a value, or gets none, wherever it stands. -/
structure Reads {α : Type} (read : Cursor → Result (α × Cursor)) (body : List Char) (a? : Option α) :
    Prop where
  opens : Opens body
  reads : ∀ (blanks : Blanks) {rest : List Char}, Stops rest → ∀ place,
    Yields (read ⟨blanks.chars ++ (body ++ rest), place⟩) a? rest

theorem Written.readsSingle (n : Written) : Reads readSingle n.text n.single? where
  opens := (IsValue.number n).opens
  reads blanks _ stop place := readSingle_of_literal (readLiteral_number blanks place stop n "f32")

theorem IsValue.readsSingle {v : List Char} (value : IsValue v) : ∃ x?, Reads readSingle v x? := by
  obtain ⟨l?, reads⟩ := readLiteral_yields value "f32"
  exact ⟨_, value.opens, fun blanks _ stop place => readSingle_of_literal (reads blanks stop place)⟩

theorem IsValue.readsWhole {v : List Char} (value : IsValue v) (width : Width) :
    ∃ n?, Reads (readWholeNumber width) v n? := by
  obtain ⟨l?, reads⟩ := readLiteral_yields value width.name
  exact ⟨_, value.opens,
    fun blanks _ stop place => readWholeNumber_of_literal width (reads blanks stop place)⟩

/-- A whole number in digits alone. -/
structure Written.IsWhole (n : Written) : Prop where
  unsigned : n.negative = false
  unbroken : n.places = []
  unscaled : n.power = none

theorem Written.IsWhole.readsWhole {n : Written} (plain : n.IsWhole) {width : Width}
    (narrow : width.limit ≤ twoTo 64) (fits : Numeral.value n.whole < width.limit) :
    Reads (readWholeNumber width) n.text (some (Numeral.value n.whole)) := by
  obtain ⟨unsigned, unbroken, unscaled⟩ := plain
  have gathered : gather 0 n.whole = _ := gather_of_lt (Nat.lt_of_lt_of_le fits narrow)
  have literal : n.literal? = some (.integer (Numeral.value n.whole)) := by
    simp [literal?, isInteger, significand, unsigned, unbroken, unscaled, gathered, gather,
      Numeral.value]
  refine ⟨(IsValue.number n).opens, fun blanks rest stop place => ?_⟩
  have reads := readWholeNumber_of_literal width
    (readLiteral_number blanks place stop n width.name)
  have inside : (0 : Int) ≤ Numeral.value n.whole ∧ (Numeral.value n.whole : Int) < width.limit :=
    ⟨Int.natCast_nonneg _, Int.ofNat_lt.mpr fits⟩
  simpa [literal, Literal.whole?, inside] using reads

section Triples

variable (blanks : Blanks) (rest : List Char) (place : Place)

theorem readComponent_item (index : Nat) (item : Item) (items : List Item) {x? : Option Single}
    (reads : Reads readSingle item.body x?) :
    Yields (readComponent index ⟨inside (index == 0) blanks (item :: items) ++ ']' :: rest, place⟩) x?
      (inside false item.after items ++ ']' :: rest) := by
  obtain ⟨after, found⟩ := nextElement_item blanks rest place (index == 0) item items reads.opens
  have stop := stops_inside (.inl rfl) item.after items rest
  simp only [readComponent, found, bind, Except.bind]
  exact (reads.reads .none stop after).within _

theorem readComponent_end (index : Nat) :
    Yields (readComponent index ⟨inside (index == 0) blanks [] ++ ']' :: rest, place⟩) none rest := by
  obtain ⟨after, found⟩ := nextElement_end blanks rest place (index == 0)
  simp only [readComponent, found, bind, Except.bind]
  exact ⟨_, rfl⟩

/-- A triple of what three parts are read as. -/
def tripleOf? : List (Option Single) → Option Vec
  | [x?, y?, z?] => x?.bind fun x => y?.bind fun y => z?.bind fun z => some ⟨x, y, z⟩
  | _ => none

theorem readTriple_items (hollow : Blanks) {items : List Item} {xs? : List (Option Single)}
    (reads : List.Forall₂ (fun item x? => Reads readSingle item.body x?) items xs?) :
    Yields (readTriple ⟨blanks.chars ++ (arrayText hollow items ++ rest), place⟩) (tripleOf? xs?)
      rest := by
  obtain ⟨after, skipped⟩ := skipBlank_cons blanks '['
    (inside true hollow items ++ ']' :: rest) (by decide) place
  simp only [arrayText, List.cons_append, List.append_assoc, List.nil_append, readTriple, skipped,
    Cursor.eat]
  -- one component after the other, as far as there are parts
  cases reads with
  | nil => exact (readComponent_end hollow rest _ 0).failed _
  | @cons x x? items xs? first reads =>
    have readX := readComponent_item hollow rest (after.past '[') 0 x items first
    cases reads with
    | nil =>
      apply readX.bind_none
      intro _ place
      exact (readComponent_end x.after rest place 1).failed _
    | @cons y y? items ys? second reads =>
      have readY (place : Place) := readComponent_item x.after rest place 1 y items second
      cases reads with
      | nil =>
        apply readX.bind_none
        intro _ place
        apply (readY place).bind_none
        intro _ place
        exact (readComponent_end y.after rest place 2).failed _
      | @cons z z? items zs? third reads =>
        have readZ (place : Place) := readComponent_item y.after rest place 2 z items third
        cases reads with
        | nil =>
          apply readX.bind
          intro _ place
          apply (readY place).bind
          intro _ place
          apply (readZ place).bind
          intro _ place
          obtain ⟨out, left⟩ := leaveArray_end z.after rest place false
          simp only [left, bind, Except.bind]
          exact ⟨out, rfl⟩
        | @cons w w? items ws? _ _ =>
          apply readX.bind_none
          intro _ place
          apply (readY place).bind_none
          intro _ place
          apply (readZ place).bind_none
          intro _ place
          obtain ⟨fault, stuck⟩ := leaveArray_item z.after rest place w items
          simp only [stuck, bind, Except.bind]
          exact ⟨fault, rfl⟩

theorem exists_readsSingle {items : List Item} (values : ∀ item ∈ items, IsValue item.body) :
    ∃ xs?, List.Forall₂ (fun item x? => Reads readSingle item.body x?) items xs? := by
  induction items with
  | nil => exact ⟨[], .nil⟩
  | cons item items ih =>
    obtain ⟨x?, first⟩ := (values item List.mem_cons_self).readsSingle
    obtain ⟨xs?, others⟩ := ih fun item inside => values item (List.mem_cons_of_mem _ inside)
    exact ⟨x? :: xs?, .cons first others⟩

theorem IsValue.readsTriple {v : List Char} (value : IsValue v) : ∃ v?, Reads readTriple v v? := by
  have refused {c : Char} {more : List Char} (same : v = c :: more) (other : c ≠ '[') :
      Reads readTriple v none := by
    refine ⟨value.opens, fun blanks rest _ place => ?_⟩
    obtain ⟨after, skipped⟩ := skipBlank_opens blanks value.opens rest place
    obtain ⟨fault, fails⟩ := readMismatch_fails (α := Vec × Cursor) tripleName ⟨v ++ rest, after⟩
    refine ⟨fault, ?_⟩
    rw [← fails]
    simp only [readTriple, skipped, bind, Except.bind]
    simp only [same, List.cons_append]
    split
    next begins => exact absurd (List.cons.inj begins).1 other
    next => rfl
  rcases value.kinds with ⟨n, same⟩ | ⟨hollow, items, rfl, values⟩ | ⟨c, more, same, other⟩
  · obtain ⟨c, more, text, rfl | digit⟩ := n.head_text
    · exact ⟨none, refused (same.trans text) (by decide)⟩
    · refine ⟨none, refused (same.trans text) ?_⟩
      rintro rfl
      cases digit
  · obtain ⟨xs?, reads⟩ := exists_readsSingle values
    exact ⟨_, value.opens, fun blanks rest _ place => readTriple_items blanks rest place hollow reads⟩
  · refine ⟨none, refused same ?_⟩
    rintro rfl
    simp at other

end Triples

end Turtle.Json
