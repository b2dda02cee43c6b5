import Turtle.Proofs.Decimal.Text
import Turtle.Proofs.Reading

/-! The operands of moves.
An actor without a point leaves its verb no other place in the line, so the operand is all that is
between the parentheses. It is a distance if it is a decimal numeral and its value is not so large
that it would be rounded to infinity; then the distance is the single nearest to it. -/
namespace Turtle.Command

variable {actor verb operand token before after : List Char}

theorem infix_append_iff {d : Char} (missing : d ∉ before) :
    d :: token <:+: before ++ after ↔ d :: token <:+: after := by
  induction before with
  | nil => rfl
  | cons e before ih =>
    rw [List.mem_cons, not_or] at missing
    simp [List.infix_cons_iff, List.cons_prefix_cons, missing.1, ih missing.2]

theorem FirstCut.append {d : Char} (missing : d ∉ before) :
    FirstCut (d :: token) (before ++ (d :: token ++ after)) before after := by
  induction before with
  | nil =>
    have whole := FirstCut.head (List.prefix_append (d :: token) after)
    rwa [List.drop_left] at whole
  | cons e before ih =>
    rw [List.mem_cons, not_or] at missing
    refine (ih missing.2).cons fun starts => missing.1 ?_
    exact (List.cons_prefix_cons.mp starts).1

/-- The line of a move. -/
def moveLine (actor verb operand : List Char) : String :=
  .ofList (actor ++ (verb ++ operand) ++ [')'])

theorem moves_moveLine (plain : '.' ∉ actor) (known : verb ∈ verbs)
    (clear : ¬ ".forward(".toList <:+: operand) :
    Moves (moveLine actor verb operand).toList actor operand := by
  refine ⟨actor ++ (verb ++ operand), String.toList_ofList, ?_⟩
  simp only [verbs, List.mem_cons, List.not_mem_nil, or_false] at known
  rcases known with rfl | rfl
  · exact .inl (FirstCut.append plain)
  · refine .inr ⟨?_, FirstCut.append plain⟩
    -- the short verb overlaps with no occurrence of the long one
    have apart : ¬ ".forward(".toList <:+: ".fd(".toList ++ operand := by
      simpa [List.infix_cons_iff, List.cons_prefix_cons] using clear
    exact fun inside => apart ((infix_append_iff plain).mp inside)

theorem unassigned_of_not_mem {text : List Char} (missing : '=' ∉ text) : Unassigned text where
  spawns name := by
    rintro ⟨rest, rfl, -⟩
    simp at missing
  queries into actor := by
    rintro ⟨rest, rfl, -⟩
    simp at missing

theorem unassigned_moveLine (named : '=' ∉ actor) (known : verb ∈ verbs) (single : '=' ∉ operand) :
    Unassigned (moveLine actor verb operand).toList := by
  apply unassigned_of_not_mem
  have token : '=' ∉ verb := by
    simp only [verbs, List.mem_cons, List.not_mem_nil, or_false] at known
    rcases known with rfl | rfl <;> decide
  simp [moveLine, named, token, single]

theorem ofLine_moveLine (named : '=' ∉ actor) (plain : '.' ∉ actor) (known : verb ∈ verbs)
    (single : '=' ∉ operand) (clear : ¬ ".forward(".toList <:+: operand) :
    ofLine (moveLine actor verb operand) = moveBy actor operand :=
  (reading_moveBy (unassigned_moveLine named known single)
    (moves_moveLine plain known clear)).ofLine_eq

section Numerals

variable (d : Decimal)

theorem not_mem_text {c : Char} (other : ¬Decimal.IsMark c) : c ∉ d.text :=
  fun inside => other (d.isMark_of_mem_text c inside)

theorem distance?_text : distance? d.text
    = if |d.value| < Number.limit then some d.numeral.nearest else none := by
  have finite := d.numeral.rounded_nearest.isFinite_iff
  unfold distance?
  rw [d.ofText?_text, Option.filter_some]
  split_ifs with real small small
  · rfl
  · exact absurd (finite.mp real) small
  · exact absurd (finite.mpr small) real
  · rfl

theorem distance?_eq_none (other : ∀ d : Decimal, d.text ≠ operand) : distance? operand = none := by
  rw [Option.eq_none_iff_forall_ne_some]
  intro distance read
  obtain ⟨denoted, finite⟩ := distance?_eq_some_iff.mp read
  obtain ⟨d, same⟩ := exists_decimal_of_ofText? denoted finite
  exact other d same

theorem ofLine_numeral (named : '=' ∉ actor) (plain : '.' ∉ actor) (known : verb ∈ verbs) :
    ofLine (moveLine actor verb d.text) = moveBy actor d.text := by
  apply ofLine_moveLine named plain known (not_mem_text d (by unfold Decimal.IsMark; decide))
  intro inside
  have letter : 'f' ∈ d.text := inside.subset (by decide)
  exact not_mem_text d (by unfold Decimal.IsMark; decide) letter

end Numerals

/-- The lower case of an operand that is no numeral, without its sign. -/
def senseless : List (List Char) := [[], ['.'], "inf".toList, "infinity".toList, "nan".toList]

/-- A word in any case has none of the characters that are no letter and that its lower case has
not. -/
theorem not_mem_word {word : List Char} (known : word.map Char.toLower ∈ senseless) {c : Char}
    (still : c.toLower = c) (missing : ∀ lower ∈ senseless, c ∉ lower) : c ∉ word := by
  intro inside
  exact missing _ known (still ▸ List.mem_map_of_mem inside)

theorem operand_of_senseless {word : List Char} (sign : Option Bool)
    (known : word.map Char.toLower ∈ senseless) :
    '=' ∉ Numeral.signText sign ++ word ∧ ¬".forward(".toList <:+: Numeral.signText sign ++ word ∧
      ∀ d : Decimal, d.text ≠ Numeral.signText sign ++ word := by
  have other {c : Char} (still : c.toLower = c) (missing : ∀ lower ∈ senseless, c ∉ lower)
      (plain : c ≠ '-' ∧ c ≠ '+') : c ∉ Numeral.signText sign ++ word := by
    rw [List.mem_append, not_or]
    exact ⟨fun front => (mem_signText front).elim plain.1 plain.2, not_mem_word known still missing⟩
  have letters : senseless.all (List.all · fun c => !c.isDigit) = true := by decide
  refine ⟨other rfl (by decide) (by decide), fun inside => ?_, fun d same => ?_⟩
  · exact other rfl (by decide) (by decide) (inside.subset (by decide : '(' ∈ ".forward(".toList))
  · obtain ⟨c, inside, digit⟩ := d.exists_digit
    refine other (toLower_of_isDigit digit) ?_ (ne_sign_of_isDigit digit) (same ▸ inside)
    intro lower known inside
    have letter := List.all_eq_true.mp (List.all_eq_true.mp letters lower known) c inside
    simp [digit] at letter

/-- An operand that is a numeral moves an actor by the single nearest to it, a tie to the even one
and a zero with the sign that is written, if it is less than half a unit in the last place beyond
the greatest single; else, and if it is no numeral, the move is malformed. -/
theorem ofLine_move_iff (named : '=' ∉ actor) (plain : '.' ∉ actor) (known : verb ∈ verbs) :
    (∀ d : Decimal,
      (∀ name distance, ofLine (moveLine actor verb d.text) = .move name distance ↔
        name = .ofList actor ∧ |d.value| < Number.limit ∧ distance.NearestTo d.value ∧
          distance.isNegative = d.negative) ∧
      (|d.value| < Number.limit →
        ∃ distance, ofLine (moveLine actor verb d.text) = .move (.ofList actor) distance) ∧
      (Number.limit ≤ |d.value| →
        ofLine (moveLine actor verb d.text) = .malformedMove (.ofList actor) (.ofList d.text))) ∧
    (∀ operand, '=' ∉ operand → ¬".forward(".toList <:+: operand →
      (∀ d : Decimal, d.text ≠ operand) →
        ofLine (moveLine actor verb operand) = .malformedMove (.ofList actor) (.ofList operand)) ∧
    ∀ sign word, word.map Char.toLower ∈ senseless →
      ofLine (moveLine actor verb (Numeral.signText sign ++ word))
        = .malformedMove (.ofList actor) (.ofList (Numeral.signText sign ++ word)) := by
  have malformed (operand : List Char) (single : '=' ∉ operand)
      (clear : ¬".forward(".toList <:+: operand) (other : ∀ d : Decimal, d.text ≠ operand) :
      ofLine (moveLine actor verb operand) = .malformedMove (.ofList actor) (.ofList operand) := by
    rw [ofLine_moveLine named plain known single clear, moveBy, distance?_eq_none other]
  refine ⟨fun d => ?_, malformed, fun sign word senseless => ?_⟩
  · rw [ofLine_numeral d named plain known, moveBy, distance?_text]
    by_cases small : |d.value| < Number.limit
    · have rounded := d.numeral.rounded_nearest
      have nearest := rounded.nearestTo (by decide) (rounded.isFinite_iff.mpr small)
      have sign := d.numeral.isNegative_nearest
      simp only [small, if_true, true_and, not_le.mpr small, false_implies, and_true,
        Command.move.injEq]
      refine ⟨fun name distance => ⟨?_, ?_⟩, fun _ => ⟨_, rfl⟩⟩
      · rintro ⟨rfl, rfl⟩
        exact ⟨rfl, nearest, sign⟩
      · rintro ⟨rfl, closest, same⟩
        exact ⟨rfl, nearest.unique closest (sign.trans same.symm)⟩
    · simp [small, not_lt.mp small]
  · obtain ⟨single, clear, other⟩ := operand_of_senseless sign senseless
    exact malformed _ single clear other

theorem operands_at_limit :
    (∃ distance, ofLine "A.fd(340282356779733661637539395458142568447)" = .move "A" distance) ∧
      ofLine "A.fd(340282356779733661637539395458142568448)"
        = .malformedMove "A" "340282356779733661637539395458142568448" ∧
      ofLine "A.fd(-.)" = .malformedMove "A" "-." := by
  let below : Decimal := ⟨none, "340282356779733661637539395458142568447".toList, none, none,
    by decide, by decide, by decide⟩
  let reached : Decimal := ⟨none, "340282356779733661637539395458142568448".toList, none, none,
    by decide, by decide, by decide⟩
  have value (n : Nat) (d : Decimal) (same : d.numeral = ⟨false, n, 0⟩) : |d.value| = n := by
    simp [Decimal.value, same, Numeral.rational, Numeral.magnitude, Number.sign]
  have first := value 340282356779733661637539395458142568447 below (by decide)
  have second := value 340282356779733661637539395458142568448 reached (by decide)
  have named : '=' ∉ ['A'] := by decide
  have plain : '.' ∉ ['A'] := by decide
  have known : ".fd(".toList ∈ verbs := by decide
  obtain ⟨numerals, -, words⟩ := ofLine_move_iff named plain known
  refine ⟨(numerals below).2.1 ?_, (numerals reached).2.2 ?_, words (some true) ['.'] (by decide)⟩
  · rw [first, Number.limit]
    norm_num
  · rw [second, Number.limit]
    norm_num

/-- Too small for a single, with its sign. -/
example : ofLine "A.fd(-1e-46)" = .move "A" (.zero true) := by decide

end Turtle.Command
