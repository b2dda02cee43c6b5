import Mathlib.Tactic.SplitIfs
import Turtle.Text.Utf8

/-! UTF-8, written and read back.
A character is written with one to four bytes, the first of which tells how many follow. A byte
string is read as a text exactly if it is what is written for that text. -/
namespace Turtle.Text

variable {bytes : Bytes} {text : List Char} {c : Char}

theorem scalar?_eq_some_iff {least code : Nat} :
    scalar? least code = some c ↔ c.toNat = code ∧ least ≤ code := by
  unfold scalar?
  by_cases proper : least ≤ code ∧ code.isValidChar
  · rw [dif_pos proper]
    constructor
    · intro found
      cases found
      exact ⟨rfl, proper.1⟩
    · rintro ⟨rfl, -⟩
      rfl
  · rw [dif_neg proper]
    refine iff_of_false nofun ?_
    rintro ⟨rfl, above⟩
    exact proper ⟨above, c.valid⟩

theorem continuation?_eq_some_iff {b : UInt8} {low : Nat} :
    continuation? b = some low ↔ b.toNat = low + 0x80 ∧ low < 64 := by
  unfold continuation?
  split <;> simp <;> omega

theorem toNat_lt (c : Char) : c.toNat < 0x110000 := by
  rcases c.valid with low | high
  · exact Nat.lt_trans low (by decide)
  · exact high.2

theorem firstChar?_append (c : Char) (rest : Bytes) :
    firstChar? (String.utf8EncodeChar c ++ rest)
      = some (c, (String.utf8EncodeChar c).length - 1) := by
  have top := toNat_lt c
  have code : c.val.toNat = c.toNat := rfl
  have trailing (n : Nat) : continuation? (.ofNat (n % 64 + 128)) = some (n % 64) :=
    continuation?_eq_some_iff.mpr ⟨by rw [UInt8.toNat_ofNat']; omega, by omega⟩
  have scalar {least code : Nat} (same : code = c.toNat) (above : least ≤ c.toNat) :
      scalar? least code = some c := scalar?_eq_some_iff.mpr ⟨same.symm, same ▸ above⟩
  simp only [String.utf8EncodeChar, code]
  split_ifs with one two three
  · have lead : (UInt8.ofNat c.toNat).toNat = c.toNat := by rw [UInt8.toNat_ofNat']; omega
    simp [firstChar?, lead, scalar, Nat.lt_succ_of_le one]
  · have lead : (UInt8.ofNat (c.toNat / 64 % 32 + 192)).toNat = c.toNat / 64 + 192 := by
      rw [UInt8.toNat_ofNat']; omega
    have single : ¬ c.toNat / 64 + 192 < 128 := by omega
    have double : c.toNat / 64 + 192 < 224 := by omega
    simp only [firstChar?, List.cons_append, lead, single, if_false, trailing, Option.bind_some]
    rw [if_pos ⟨by omega, double⟩, scalar (by omega) (by omega)]
    rfl
  · have lead : (UInt8.ofNat (c.toNat / 4096 % 16 + 224)).toNat = c.toNat / 4096 + 224 := by
      rw [UInt8.toNat_ofNat']; omega
    have single : ¬ c.toNat / 4096 + 224 < 128 := by omega
    have double : ¬ c.toNat / 4096 + 224 < 224 := by omega
    have triple : c.toNat / 4096 + 224 < 240 := by omega
    simp only [firstChar?, List.cons_append, lead, single, double, triple, if_false, trailing,
      Option.bind_some, and_false]
    rw [if_pos ⟨by omega, trivial⟩, scalar (by omega) (by omega)]
    rfl
  · have lead : (UInt8.ofNat (c.toNat / 262144 % 8 + 240)).toNat = c.toNat / 262144 + 240 := by
      rw [UInt8.toNat_ofNat']; omega
    have single : ¬ c.toNat / 262144 + 240 < 128 := by omega
    have double : ¬ c.toNat / 262144 + 240 < 224 := by omega
    have triple : ¬ c.toNat / 262144 + 240 < 240 := by omega
    have quadruple : c.toNat / 262144 + 240 < 248 := by omega
    simp only [firstChar?, List.cons_append, lead, single, double, triple, quadruple, if_false,
      trailing, Option.bind_some, and_false, and_true]
    rw [if_pos (by omega), scalar (by omega) (by omega)]
    rfl

theorem byte_eq {b : UInt8} {n : Nat} (same : b.toNat = n) : b = .ofNat n := by
  subst same
  exact b.ofNat_toNat.symm

theorem trailing_of_bind {α : Type} {b : UInt8} {f : Nat → Option α} {a : α}
    (found : (continuation? b).bind f = some a) :
    ∃ low < 64, b = .ofNat (low + 128) ∧ f low = some a := by
  obtain ⟨low, trails, found⟩ := Option.bind_eq_some_iff.mp found
  obtain ⟨value, range⟩ := continuation?_eq_some_iff.mp trails
  exact ⟨low, range, byte_eq value, found⟩

theorem scalar_of_map {least code count more : Nat}
    (found : (scalar? least code).map (·, count) = some (c, more)) :
    c.toNat = code ∧ least ≤ code ∧ more = count := by
  obtain ⟨d, read, same⟩ := Option.map_eq_some_iff.mp found
  cases same
  obtain ⟨value, above⟩ := scalar?_eq_some_iff.mp read
  exact ⟨value, above, rfl⟩

theorem eq_append_of_firstChar? {more : Nat} (found : firstChar? bytes = some (c, more)) :
    ∃ rest, bytes = String.utf8EncodeChar c ++ rest ∧
      more = (String.utf8EncodeChar c).length - 1 := by
  have code : c.val.toNat = c.toNat := rfl
  cases bytes with
  | nil => cases found
  | cons lead rest =>
    have first := byte_eq (b := lead) rfl
    have small := lead.toNat_lt
    simp only [firstChar?] at found
    split_ifs at found with one two three four
    · obtain ⟨value, -, rfl⟩ := scalar_of_map found
      simp only [String.utf8EncodeChar, code, value, if_pos (Nat.le_of_lt_succ one), ← first]
      exact ⟨rest, rfl, rfl⟩
    · obtain _ | ⟨b, rest⟩ := rest
      · cases found
      obtain ⟨second, range, same, found⟩ := trailing_of_bind found
      obtain ⟨value, above, rfl⟩ := scalar_of_map found
      subst same
      have parts : c.toNat / 64 % 32 + 192 = lead.toNat ∧ c.toNat % 64 = second := by omega
      simp only [String.utf8EncodeChar, code, if_neg (show ¬ c.toNat ≤ 0x7f by omega),
        if_pos (show c.toNat ≤ 0x7ff by omega), parts, ← first]
      exact ⟨rest, rfl, rfl⟩
    · obtain _ | ⟨b, _ | ⟨b', rest⟩⟩ := rest
      · cases found
      · simp at found
      obtain ⟨second, range, same, found⟩ := trailing_of_bind found
      obtain ⟨third, range', same', found⟩ := trailing_of_bind found
      obtain ⟨value, above, rfl⟩ := scalar_of_map found
      subst same same'
      have parts : c.toNat / 4096 % 16 + 224 = lead.toNat ∧ c.toNat / 64 % 64 = second ∧
          c.toNat % 64 = third := by omega
      simp only [String.utf8EncodeChar, code, if_neg (show ¬ c.toNat ≤ 0x7f by omega),
        if_neg (show ¬ c.toNat ≤ 0x7ff by omega), if_pos (show c.toNat ≤ 0xffff by omega), parts,
        ← first]
      exact ⟨rest, rfl, rfl⟩
    · obtain _ | ⟨b, _ | ⟨b', _ | ⟨b'', rest⟩⟩⟩ := rest
      · cases found
      · simp at found
      · simp at found
      obtain ⟨second, range, same, found⟩ := trailing_of_bind found
      obtain ⟨third, range', same', found⟩ := trailing_of_bind found
      obtain ⟨fourth, range'', same'', found⟩ := trailing_of_bind found
      obtain ⟨value, above, rfl⟩ := scalar_of_map found
      subst same same' same''
      have parts : c.toNat / 262144 % 8 + 240 = lead.toNat ∧ c.toNat / 4096 % 64 = second ∧
          c.toNat / 64 % 64 = third ∧ c.toNat % 64 = fourth := by omega
      simp only [String.utf8EncodeChar, code, if_neg (show ¬ c.toNat ≤ 0x7f by omega),
        if_neg (show ¬ c.toNat ≤ 0x7ff by omega), if_neg (show ¬ c.toNat ≤ 0xffff by omega), parts,
        ← first]
      exact ⟨rest, rfl, rfl⟩
    · obtain _ | ⟨b, _ | ⟨b', _ | ⟨b'', rest⟩⟩⟩ := rest <;> simp at found

theorem piecesFrom_append (front rest : Bytes) :
    piecesFrom front.length (front ++ rest) = piecesFrom 0 rest := by
  induction front with
  | nil => rfl
  | cons b front ih => exact ih

theorem pieces_encodeChar (c : Char) (rest : Bytes) :
    pieces (String.utf8EncodeChar c ++ rest) = .char c :: pieces rest := by
  have found := firstChar?_append c rest
  cases bytes : String.utf8EncodeChar c with
  | nil => exact absurd bytes String.utf8EncodeChar_ne_nil
  | cons b more =>
    rw [bytes] at found
    simp only [List.cons_append, List.length_cons, Nat.add_sub_cancel] at found
    simp only [pieces, List.cons_append, piecesFrom, found, piecesFrom_append]

theorem decode?_encode (text : List Char) : decode? (encode text) = some text := by
  induction text with
  | nil => rfl
  | cons c text ih =>
    simp only [decode?, encode, List.flatMap_cons, pieces_encodeChar] at ih ⊢
    simp [Piece.char?, ih]

/-- The first piece of a byte string is its first character, if it is one at all. -/
theorem eq_append_of_pieces {more : List Piece} (cut : pieces bytes = .char c :: more) :
    ∃ rest, bytes = String.utf8EncodeChar c ++ rest ∧ pieces rest = more := by
  cases bytes with
  | nil => cases cut
  | cons b bytes =>
    simp only [pieces, piecesFrom] at cut
    split at cut
    · rename_i d skip found
      obtain ⟨same, rfl⟩ := List.cons.inj cut
      cases same
      obtain ⟨rest, split, length⟩ := eq_append_of_firstChar? found
      refine ⟨rest, split, ?_⟩
      cases front : String.utf8EncodeChar c with
      | nil => exact absurd front String.utf8EncodeChar_ne_nil
      | cons first front' =>
        rw [front] at split length
        obtain ⟨_, rfl⟩ := List.cons.inj split
        rw [length, List.length_cons, Nat.add_sub_cancel]
        exact (piecesFrom_append front' rest).symm
    · cases (List.cons.inj cut).1

theorem eq_encode_of_decode? (decoded : decode? bytes = some text) : bytes = encode text := by
  induction text generalizing bytes with
  | nil =>
    cases bytes with
    | nil => rfl
    | cons b bytes =>
      simp only [decode?, pieces, piecesFrom] at decoded
      split at decoded <;> simp [Option.bind_eq_some_iff] at decoded
  | cons c text ih =>
    cases cut : pieces bytes with
    | nil => simp [decode?, cut] at decoded
    | cons piece more =>
      simp only [decode?, cut, List.mapM_cons, Option.bind_eq_bind, Option.bind_eq_some_iff,
        Option.pure_def, Option.some.injEq, List.cons.injEq] at decoded
      obtain ⟨d, first, others, later, rfl, rfl⟩ := decoded
      cases piece with
      | stray b => cases first
      | char d =>
        cases first
        obtain ⟨rest, rfl, rfl⟩ := eq_append_of_pieces cut
        rw [ih later]
        rfl

theorem decode?_eq_some_iff : decode? bytes = some text ↔ bytes = encode text := by
  refine ⟨eq_encode_of_decode?, ?_⟩
  rintro rfl
  exact decode?_encode text

theorem isSome_decode?_iff : (decode? bytes).isSome ↔ ∃ text, bytes = encode text := by
  simp only [Option.isSome_iff_exists, decode?_eq_some_iff]

end Turtle.Text
