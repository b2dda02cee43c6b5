import Turtle.Json.Text
import Turtle.Proofs.Json.Number

/-! The strings of JSON text.
A string is spelled letter by letter: a character as it is, a character by its mark, or a unit of
UTF-16 in hexadecimal digits. Units of surrogates only count in pairs. -/
namespace Turtle.Json

/-- The characters that have a mark of their own after a backslash. -/
def marks : List (Char × Char) :=
  [('"', '"'), ('\\', '\\'), ('/', '/'), ('b', '\x08'), ('f', '\x0c'), ('n', '\n'), ('r', '\r'),
    ('t', '\t')]

inductive Letter where
  | plain (c : Char) (bare : c ≠ '"' ∧ c ≠ '\\' ∧ 0x20 ≤ c.toNat)
  | marked (mark c : Char) (known : (mark, c) ∈ marks)
  | unit (digits : List Char) (four : digits.length = 4) (hex : digits.all (hexValue? · |>.isSome))

namespace Letter

def text : Letter → List Char
  | plain c _ => [c]
  | marked mark _ _ => ['\\', mark]
  | unit digits _ _ => '\\' :: 'u' :: digits

/-- The value of a unit. -/
def value (digits : List Char) : Nat :=
  digits.foldl (fun value c => 16 * value + (hexValue? c).getD 0) 0

/-- The character of two surrogates. -/
def paired (leading trailing : Nat) : Char :=
  Char.ofNat ((leading - 0xD800) * 0x400 + (trailing - 0xDC00) + 0x10000)

/-- The characters that letters stand for, if no surrogate is left alone. -/
def decode? : List Letter → Option (List Char)
  | [] => some []
  | plain c _ :: more => (decode? more).map (c :: ·)
  | marked _ c _ :: more => (decode? more).map (c :: ·)
  | unit first _ _ :: rest =>
    if isTrailing (value first) then none
    else if isLeading (value first) then
      match rest with
      | unit second _ _ :: more =>
        if isTrailing (value second) then
          (decode? more).map (paired (value first) (value second) :: ·)
        else none
      | _ => none
    else (decode? rest).map (Char.ofNat (value first) :: ·)

theorem decode?_trailing {first : List Char} {four hex} (rest : List Letter)
    (trailing : isTrailing (value first) = true) : decode? (unit first four hex :: rest) = none := by
  unfold decode?
  rw [if_pos trailing]

theorem decode?_single {first : List Char} {four hex} (rest : List Letter)
    (trailing : isTrailing (value first) = false) (leading : isLeading (value first) = false) :
    decode? (unit first four hex :: rest)
      = (decode? rest).map (Char.ofNat (value first) :: ·) := by
  rw [decode?.eq_def]
  simp only [trailing, leading, Bool.false_eq_true, if_false]

theorem decode?_alone {first : List Char} {four hex} (rest : List Letter)
    (leading : isLeading (value first) = true)
    (other : ∀ d four hex, rest.head? ≠ some (unit d four hex)) :
    decode? (unit first four hex :: rest) = none := by
  rw [decode?.eq_def]
  simp only [leading, if_true]
  split_ifs
  · rfl
  · split
    next d four' hex' more => exact absurd rfl (other d four' hex')
    next => rfl

end Letter

/-- The text of a string after its opening quote. -/
def spelled (letters : List Letter) : List Char := letters.flatMap Letter.text ++ ['"']

theorem hexValue?_ascii {c : Char} (hex : (hexValue? c).isSome) : c.utf8Size = 1 := by
  apply Char.utf8Size_eq_one_iff.mpr
  unfold hexValue? at hex
  split_ifs at hex with digit lower upper
  · simp only [Char.isDigit, Bool.and_eq_true, decide_eq_true_eq] at digit
    exact UInt32.le_trans digit.2 (by decide)
  · exact UInt32.le_trans lower.2 (by decide)
  · exact UInt32.le_trans upper.2 (by decide)
  · cases hex

theorem advance?_hex {digits : List Char} (hex : digits.all (hexValue? · |>.isSome))
    (rest : List Char) (place : Place) :
    ∃ after, place.advance? digits.length (digits ++ rest) = some after := by
  induction digits generalizing place with
  | nil => exact ⟨place, by cases rest <;> rfl⟩
  | cons c digits ih =>
    simp only [List.all_cons, Bool.and_eq_true] at hex
    have narrow := hexValue?_ascii hex.1
    simpa [Place.advance?, narrow] using ih hex.2 (place.past c)

theorem mapM_hexValue? {digits : List Char} (hex : digits.all (hexValue? · |>.isSome)) :
    digits.mapM hexValue? = some (digits.map fun c => (hexValue? c).getD 0) := by
  induction digits with
  | nil => rfl
  | cons c digits ih =>
    simp only [List.all_cons, Bool.and_eq_true] at hex
    obtain ⟨value, known⟩ := Option.isSome_iff_exists.mp hex.1
    simp [List.mapM_cons, ih hex.2, known]

theorem readUnit_yields {digits : List Char} (four : digits.length = 4)
    (hex : digits.all (hexValue? · |>.isSome)) (rest : List Char) (place : Place) :
    ∃ after, readUnit ⟨digits ++ rest, place⟩ = .ok (Letter.value digits, ⟨rest, after⟩) := by
  obtain ⟨after, advanced⟩ := advance?_hex hex rest place
  rw [four] at advanced
  have taken : (digits ++ rest).take 4 = digits := by simp [← four]
  have dropped : (digits ++ rest).drop 4 = rest := by simp [← four]
  refine ⟨after, ?_⟩
  simp [readUnit, advanced, taken, dropped, mapM_hexValue? hex, Letter.value, List.foldl_map]

theorem spelled_cons (letter : Letter) (letters : List Letter) (rest : List Char) :
    spelled (letter :: letters) ++ rest = letter.text ++ (spelled letters ++ rest) := by
  simp [spelled]

theorem readEscape_marked {mark c : Char} (known : (mark, c) ∈ marks) (rest : List Char)
    (place : Place) : readEscape ⟨mark :: rest, place⟩ = .ok (c, ⟨rest, place.past mark⟩) := by
  simp only [marks, List.mem_cons, Prod.mk.injEq, List.not_mem_nil, or_false] at known
  rcases known with ⟨rfl, rfl⟩ | ⟨rfl, rfl⟩ | ⟨rfl, rfl⟩ | ⟨rfl, rfl⟩ | ⟨rfl, rfl⟩ | ⟨rfl, rfl⟩ |
    ⟨rfl, rfl⟩ | ⟨rfl, rfl⟩ <;> rfl

/-- A unit other than of a surrogate is a character by itself. -/
theorem readCodePoint_single {digits : List Char} (four : digits.length = 4)
    (hex : digits.all (hexValue? · |>.isSome)) (trailing : isTrailing (Letter.value digits) = false)
    (leading : isLeading (Letter.value digits) = false) (rest : List Char) (place : Place) :
    ∃ after, readCodePoint ⟨digits ++ rest, place⟩
      = .ok (Char.ofNat (Letter.value digits), ⟨rest, after⟩) := by
  obtain ⟨after, found⟩ := readUnit_yields four hex rest place
  refine ⟨after, ?_⟩
  simp [readCodePoint, found, trailing, leading, bind, Except.bind]

theorem readCodePoint_trailing {digits : List Char} (four : digits.length = 4)
    (hex : digits.all (hexValue? · |>.isSome)) (trailing : isTrailing (Letter.value digits) = true)
    (rest : List Char) (place : Place) :
    ∃ fault, readCodePoint ⟨digits ++ rest, place⟩ = .error fault := by
  obtain ⟨after, found⟩ := readUnit_yields four hex rest place
  simp [readCodePoint, found, trailing, bind, Except.bind]
  exact ⟨_, rfl⟩

theorem readCodePoint_pair {first second : List Char} (four : first.length = 4)
    (hex : first.all (hexValue? · |>.isSome)) (four' : second.length = 4)
    (hex' : second.all (hexValue? · |>.isSome)) (trailing : isTrailing (Letter.value first) = false)
    (leading : isLeading (Letter.value first) = true) (rest : List Char) (place : Place) :
    Yields (readCodePoint ⟨first ++ '\\' :: 'u' :: (second ++ rest), place⟩)
      (if isTrailing (Letter.value second) then
        some (Letter.paired (Letter.value first) (Letter.value second))
      else none) rest := by
  obtain ⟨after, found⟩ := readUnit_yields four hex ('\\' :: 'u' :: (second ++ rest)) place
  obtain ⟨after', found'⟩ := readUnit_yields four' hex' rest ((after.past '\\').past 'u')
  simp [readCodePoint, found, trailing, leading, bind, Except.bind, readMark, Cursor.eat, found']
  split_ifs
  · exact ⟨after', rfl⟩
  · exact ⟨_, rfl⟩

/-- A leading surrogate before anything but a unit is refused. -/
theorem readCodePoint_alone {digits : List Char} (four : digits.length = 4)
    (hex : digits.all (hexValue? · |>.isSome)) (leading : isLeading (Letter.value digits) = true)
    (letters : List Letter) (other : ∀ d four hex, letters.head? ≠ some (.unit d four hex))
    (rest : List Char) (place : Place) :
    ∃ fault, readCodePoint ⟨digits ++ (spelled letters ++ rest), place⟩ = .error fault := by
  obtain ⟨after, found⟩ := readUnit_yields four hex (spelled letters ++ rest) place
  have trailing : isTrailing (Letter.value digits) = false := by
    simp [isLeading, isTrailing] at leading ⊢
    omega
  simp only [readCodePoint, found, trailing, leading, bind, Except.bind, if_true, Bool.false_eq_true,
    if_false]
  cases letters with
  | nil => exact ⟨_, rfl⟩
  | cons letter letters =>
    rw [spelled_cons]
    cases letter with
    | plain c bare => simp [Letter.text, readMark, bare.2.1]; exact ⟨_, rfl⟩
    | marked mark c known =>
      have differs : mark ≠ 'u' := by
        rintro rfl
        simp [marks] at known
      simp [Letter.text, readMark, Cursor.eat, differs]
      exact ⟨_, rfl⟩
    | unit d four' hex' => exact absurd rfl (other d four' hex')

theorem readTextFrom_yields (letters : List Letter) {rounds : Nat} (enough : letters.length < rounds)
    (before rest : List Char) (place : Place) :
    Yields (readTextFrom rounds before ⟨spelled letters ++ rest, place⟩)
      ((Letter.decode? letters).map fun cs => String.ofList (before.reverse ++ cs)) rest := by
  induction size : letters.length using Nat.strongRecOn generalizing letters rounds before place with
  | _ size ih =>
    obtain ⟨rounds, rfl⟩ := Nat.exists_eq_succ_of_ne_zero (Nat.ne_zero_of_lt enough)
    have goes {c : Char} {others : List Letter} (fewer : others.length < letters.length)
        (place : Place) : Yields (readTextFrom rounds (c :: before) ⟨spelled others ++ rest, place⟩)
          _ rest := ih others.length (by omega) others (by omega) (c :: before) place rfl
    cases letters with
    | nil => exact ⟨place.past '"', by simp [spelled, readTextFrom, Cursor.eat]⟩
    | cons letter letters =>
      rw [spelled_cons]
      cases letter with
      | plain c bare =>
        have follow := goes (c := c) (Nat.lt_succ_self letters.length) (place.past c)
        have high : ¬ c.toNat < 0x20 := Nat.not_lt.mpr bare.2.2
        simpa [Letter.text, Letter.decode?, readTextFrom, bare.1, bare.2.1, high, Cursor.eat,
          Option.map_map, Function.comp_def] using follow
      | marked mark c known =>
        have follow := goes (c := c) (Nat.lt_succ_self letters.length) ((place.past '\\').past mark)
        simpa [Letter.text, Letter.decode?, readTextFrom, Cursor.eat, readEscape_marked known,
          bind, Except.bind, Option.map_map, Function.comp_def] using follow
      | unit digits four hex =>
        have escape (tail : List Char) (place : Place) : readEscape ⟨'u' :: tail, place⟩
            = readCodePoint ⟨tail, place.past 'u'⟩ := rfl
        simp only [Letter.text, List.cons_append, readTextFrom, Cursor.eat, escape, bind, Except.bind]
        generalize (place.past '\\').past 'u' = here
        cases trailing : isTrailing (Letter.value digits) with
        | true =>
          obtain ⟨fault, found⟩ :=
            readCodePoint_trailing four hex trailing (spelled letters ++ rest) here
          simp [found, Letter.decode?_trailing _ trailing, Yields]
        | false =>
          cases leading : isLeading (Letter.value digits) with
          | false =>
            obtain ⟨after, found⟩ := readCodePoint_single four hex trailing leading
              (spelled letters ++ rest) here
            have follow := goes (c := Char.ofNat (Letter.value digits))
              (Nat.lt_succ_self letters.length) after
            simpa [found, Letter.decode?_single _ trailing leading, Option.map_map, Function.comp_def]
              using follow
          | true =>
            by_cases paired : ∃ d four' hex', letters.head? = some (.unit d four' hex')
            · obtain ⟨second, four', hex', head⟩ := paired
              obtain ⟨more, rfl⟩ := List.head?_eq_some_iff.mp head
              have found := readCodePoint_pair four hex four' hex' trailing leading
                (spelled more ++ rest) here
              rw [spelled_cons]
              simp only [Letter.text, List.cons_append, Letter.decode?, trailing, leading,
                Bool.false_eq_true, if_false, if_true]
              split_ifs at found ⊢ with pair
              · obtain ⟨after, found⟩ := found
                have follow := goes (c := Letter.paired (Letter.value digits) (Letter.value second))
                  (Nat.lt_succ_of_lt (Nat.lt_succ_self more.length)) after
                simpa [found, Option.map_map, Function.comp_def] using follow
              · obtain ⟨fault, found⟩ := found
                simp [found, Yields]
            · have other : ∀ d four hex, letters.head? ≠ some (.unit d four hex) :=
                fun d four hex same => paired ⟨d, four, hex, same⟩
              obtain ⟨fault, found⟩ := readCodePoint_alone four hex leading letters other rest here
              rw [found, Letter.decode?_alone letters leading other]
              exact ⟨fault, rfl⟩

theorem readText_yields (letters : List Letter) (rest : List Char) (place : Place) :
    Yields (readText ⟨spelled letters ++ rest, place⟩)
      ((Letter.decode? letters).map String.ofList) rest := by
  have enough : letters.length < (spelled letters ++ rest).length := by
    have each : ∀ letters : List Letter, letters.length ≤ (letters.flatMap Letter.text).length := by
      intro letters
      induction letters with
      | nil => simp
      | cons letter letters ih =>
        have one : 1 ≤ letter.text.length := by cases letter <;> simp [Letter.text]
        simp only [List.flatMap_cons, List.length_append, List.length_cons]
        omega
    have size := each letters
    simp only [spelled, List.length_append, List.length_singleton]
    omega
  exact readTextFrom_yields letters enough [] rest place

end Turtle.Json
