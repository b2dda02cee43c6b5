import Turtle.Proofs.Decimal.Bracket
import Turtle.Proofs.Number.Twice

/-! Decimals of few digits, in double and then in single precision.
A double nearest to `d × 10 ^ e`, or one computed with the double nearest to the power of ten, can be
on the wrong side of the middle between two singles only if the decimal is extremely close to it.
For few digits and each power of ten there are at most a handful of decimals as close as that to
middles of any one order of magnitude; they are found with a bracket. -/
namespace Turtle

/-- Multiples of `a` and of `b`, and those of the numbers that stand in for the two. -/
structure Scales where
  a : Nat
  b : Nat
  a' : Nat
  b' : Nat

namespace Scales

def precision : Nat := 2 * Format.double.binade

/-- The quotient of the numbers that stand in is off by no more than a rounding error. -/
structure Faithful (c : Scales) : Prop where
  positive : 0 < c.b ∧ 0 < c.b'
  lower : precision * (c.a * c.b') ≤ precision * (c.a' * c.b) + c.a * c.b'
  upper : precision * (c.a' * c.b) ≤ precision * (c.a * c.b') + c.a' * c.b

/-- Multiples stay in order where others stand in for them, with some distance. -/
def Agrees (c : Scales) (x y : Nat) : Prop :=
  (y * c.b < x * c.a → (precision + 1) * (y * c.b') < precision * (x * c.a')) ∧
    (x * c.a < y * c.b → precision * (x * c.a') + y * c.b' < precision * (y * c.b')) ∧
    (x * c.a = y * c.b → x * c.a' = y * c.b')

instance (c : Scales) (x y : Nat) : Decidable (c.Agrees x y) :=
  inferInstanceAs (Decidable (_ ∧ _ ∧ _))

/-- Far enough apart for rounding errors in both not to matter. -/
def Far (small large : Nat) : Prop := (precision + 2) * small + large < precision * large

variable {c : Scales} {x y m : Nat}

theorem far_of_twice {small large : Nat} (twice : 2 * small < large) : Far small large := by
  have size : precision = 9007199254740992 := by decide
  rw [Far, size]
  omega

theorem far_of_apart {small large limit gap : Nat} (bounded : small ≤ limit)
    (apart : small + gap ≤ large) (wide : 3 * limit + gap < precision * gap) : Far small large := by
  obtain ⟨part, rfl⟩ := Nat.exists_eq_add_of_le apart
  have size : precision = 9007199254740992 := by decide
  rw [size] at wide
  rw [Far, size]
  omega

theorem Faithful.agrees_of_far_above (faithful : c.Faithful) (far : Far (y * c.b) (x * c.a)) :
    c.Agrees x y := by
  obtain ⟨⟨proper, proper'⟩, lower, upper⟩ := faithful
  unfold Far at far
  have order : y * c.b < x * c.a := by nlinarith
  refine ⟨fun _ => ?_, fun other => absurd other (Nat.lt_asymm order),
    fun same => absurd same (Nat.ne_of_gt order)⟩
  apply Nat.lt_of_mul_lt_mul_right (a := c.b)
  have first := Nat.mul_lt_mul_of_pos_right far proper'
  have second := Nat.mul_le_mul_left x lower
  nlinarith [Nat.zero_le (y * c.b * c.b')]

theorem Faithful.agrees_of_far_below (faithful : c.Faithful) (far : Far (x * c.a) (y * c.b)) :
    c.Agrees x y := by
  obtain ⟨⟨proper, proper'⟩, lower, upper⟩ := faithful
  unfold Far at far
  have order : x * c.a < y * c.b := by nlinarith
  refine ⟨fun other => absurd other (Nat.lt_asymm order), fun _ => ?_,
    fun same => absurd same (Nat.ne_of_lt order)⟩
  obtain ⟨S, split⟩ : ∃ S, precision = S + 2 := ⟨precision - 2, by decide⟩
  rw [split] at far upper ⊢
  apply Nat.lt_of_mul_lt_mul_right (a := (S + 1) * c.b)
  have first := Nat.mul_lt_mul_of_pos_right far (Nat.mul_pos (Nat.succ_pos S) proper')
  have second := Nat.mul_le_mul_left (x * (S + 2)) upper
  nlinarith [Nat.zero_le (x * c.a * c.b'), Nat.zero_le (S * (x * c.a * c.b'))]

theorem Agrees.mul (agrees : c.Agrees x y) (positive : 0 < m) : c.Agrees (m * x) (m * y) := by
  obtain ⟨above, below, level⟩ := agrees
  simp only [Agrees, Nat.mul_assoc, Nat.mul_left_comm _ m, ← Nat.mul_add,
    Nat.mul_lt_mul_left positive, Nat.mul_right_inj (Nat.ne_of_gt positive)]
  exact ⟨above, below, level⟩

/-- The decimals with fewer digits than `few` are settled here. -/
def few : Nat := 34000000

/-- What no multiple in question exceeds. -/
def reach (c : Scales) : Nat := min (few * c.a) ((2 * twoTo 24 + 1) * c.b)

/-- A bracket of the quotient that settles all multiples in question: those of its two fractions agree,
if they are not beyond reach, even, or named by `exempt`, and the others are far apart. -/
structure Settled (c : Scales) (exempt : List Nat) (k : Bracket) : Prop where
  enough : c.reach < c.a * (k.d + k.d')
  apart : 3 * c.reach + (k.excess + k.shortage) < precision * (k.excess + k.shortage)
  first : k.n % 2 = 0 ∨ 2 * twoTo 24 ≤ k.n ∨ c.Agrees k.d k.n ∨ twoTo 24 ≤ k.n ∧ k.d ∈ exempt
  last : k.n' % 2 = 0 ∨ 2 * twoTo 24 ≤ k.n' ∨ c.Agrees k.d' k.n' ∨ twoTo 24 ≤ k.n' ∧ k.d' ∈ exempt

instance (c : Scales) (exempt : List Nat) (k : Bracket) : Decidable (c.Settled exempt k) :=
  decidable_of_iff (_ ∧ _ ∧ _ ∧ _)
    ⟨fun ⟨enough, apart, first, last⟩ => ⟨enough, apart, first, last⟩,
      fun ⟨enough, apart, first, last⟩ => ⟨enough, apart, first, last⟩⟩

theorem agrees_of_multiple {exempt : List Nat} {d n : Nat}
    (one : n % 2 = 0 ∨ 2 * twoTo 24 ≤ n ∨ c.Agrees d n ∨ twoTo 24 ≤ n ∧ d ∈ exempt)
    (odd : m * n % 2 = 1) (short : m * n < 2 * twoTo 24) (plain : m * d ∉ exempt) :
    c.Agrees (m * d) (m * n) := by
  have positive : 0 < m := by
    apply Nat.pos_of_ne_zero
    rintro rfl
    simp at odd
  have bigger : n ≤ m * n := Nat.le_mul_of_pos_left n positive
  rcases one with even | long | agrees | ⟨long, named⟩
  · simp [Nat.mul_mod, even] at odd
  · exact absurd (Nat.le_trans long bigger) (Nat.not_le_of_lt short)
  · exact agrees.mul positive
  · have once : m = 1 := by nlinarith
    simp only [once, Nat.one_mul] at plain
    exact absurd named plain

theorem Settled.agrees {exempt : List Nat} {k : Bracket} (settled : c.Settled exempt k)
    (around : k.Around c.a c.b) (faithful : c.Faithful) (positive : 0 < x) (bounded : x < few)
    (odd : y % 2 = 1) (short : y < 2 * twoTo 24) (plain : x ∉ exempt) : c.Agrees x y := by
  obtain ⟨enough, apart, first, last⟩ := settled
  have inX : x * c.a ≤ few * c.a := Nat.mul_le_mul_right _ (Nat.le_of_lt bounded)
  have inY : y * c.b + 2 * c.b ≤ (2 * twoTo 24 + 1) * c.b := by nlinarith
  by_cases near : x < k.d + k.d'
  · rcases around.apart positive near (y := y) with ⟨m, rfl, rfl⟩ | ⟨m, rfl, rfl⟩ | above | below
    · exact agrees_of_multiple first odd short plain
    · exact agrees_of_multiple last odd short plain
    · have within : y * c.b ≤ c.reach := by
        apply Nat.le_min.mpr
        omega
      exact faithful.agrees_of_far_above (far_of_apart within above apart)
    · have within : x * c.a ≤ c.reach := by
        apply Nat.le_min.mpr
        omega
      exact faithful.agrees_of_far_below (far_of_apart within below apart)
  · -- past the reach of `a`, so it is `b` that limits the search
    have past : c.reach < x * c.a := by
      apply Nat.lt_of_lt_of_le enough
      rw [Nat.mul_comm]
      exact Nat.mul_le_mul_right _ (Nat.le_of_not_lt near)
    have limited : (2 * twoTo 24 + 1) * c.b < x * c.a := by
      unfold reach at past
      omega
    have proper := faithful.positive.1
    apply faithful.agrees_of_far_above
    have size : precision = 9007199254740992 := by decide
    have full : twoTo 24 = 16777216 := by decide
    rw [full] at limited inY short
    rw [Far, size]
    nlinarith

end Scales

/-- A power of ten as a quotient. -/
def tens (exponent : Int) : Nat × Nat := (tenTo exponent.toNat, tenTo (-exponent).toNat)

theorem tens_pos (exponent : Int) : 0 < (tens exponent).1 ∧ 0 < (tens exponent).2 :=
  ⟨tenTo_pos _, tenTo_pos _⟩

theorem tens_up {exponent : Int} (up : 0 ≤ exponent) :
    tens exponent = (tenTo exponent.natAbs, 1) := by
  have whole : exponent.toNat = exponent.natAbs := by omega
  have none : (-exponent).toNat = 0 := by omega
  simp [tens, whole, none, tenTo]

theorem tens_down {exponent : Int} (down : exponent < 0) :
    tens exponent = (1, tenTo exponent.natAbs) := by
  have whole : exponent.toNat = 0 := by omega
  have part : (-exponent).toNat = exponent.natAbs := by omega
  simp [tens, whole, part, tenTo]

/-- The double nearest to a power of ten, as a code. -/
def roundedTen (n : Nat) : Nat := Format.double.nearest (tenTo n * Format.double.unit) 1

/-- The quotient a reader has for a power of ten. -/
def roundedTens (exponent : Int) : Nat × Nat :=
  let power := Format.double.quanta (roundedTen exponent.natAbs)
  if 0 ≤ exponent then (power, Format.double.unit) else (Format.double.unit, power)

namespace Format

/-- The code nearest to `d × 10 ^ exponent`. -/
def decimal (F : Format) (d : Nat) (exponent : Int) : Nat :=
  F.nearest (d * (tens exponent).1 * F.unit) (tens exponent).2

/-- The single that comes of `d × 10 ^ exponent` by way of doubles. -/
def detour (d : Nat) (exponent : Int) : Nat :=
  through (d * (roundedTens exponent).1 * double.unit) (roundedTens exponent).2

end Format

namespace Scales

open Format (double single)

theorem tenTo_le {m n : Nat} (below : m ≤ n) : tenTo m ≤ tenTo n :=
  Nat.pow_le_pow_right (by decide) below

theorem roundedTen_le {m n : Nat} (below : m ≤ n) : roundedTen m ≤ roundedTen n := by
  apply Format.nearest_le_nearest (by decide) Nat.one_pos Nat.one_pos
  exact Nat.mul_le_mul_right 1 (Nat.mul_le_mul_right _ (tenTo_le below))

theorem roundedTen_bounds {n : Nat} (small : n ≤ 308) :
    double.binade < roundedTen n ∧ roundedTen n < double.infinity := by
  have low : double.binade < roundedTen 0 := by decide +kernel
  have high : roundedTen 308 < double.infinity := by decide +kernel
  exact ⟨Nat.lt_of_lt_of_le low (roundedTen_le (Nat.zero_le n)),
    Nat.lt_of_le_of_lt (roundedTen_le small) high⟩

theorem roundedTen_within {n : Nat} (small : n ≤ 308) :
    precision * (tenTo n * double.unit)
        ≤ precision * double.quanta (roundedTen n) + tenTo n * double.unit ∧
      precision * double.quanta (roundedTen n)
        ≤ precision * (tenTo n * double.unit) + double.quanta (roundedTen n) := by
  obtain ⟨normal, finite⟩ := roundedTen_bounds small
  have within := Format.nearest_within (by decide) Nat.one_pos normal finite
  change precision * _ ≤ (precision + 1) * (double.quanta (roundedTen n) * 1) ∧
    precision * (double.quanta (roundedTen n) * 1)
      ≤ precision * _ + double.quanta (roundedTen n) * 1 at within
  have size : precision = 9007199254740992 := by decide
  rw [size, Nat.mul_one] at within
  rw [size]
  omega

/-- The scales on which a decimal and the middles of one order of magnitude are compared. -/
def ofTens (exponent : Int) (shift : Nat) : Scales :=
  ⟨(tens exponent).1 * twoTo 150, (tens exponent).2 * twoTo shift,
    (roundedTens exponent).1 * twoTo 150, (roundedTens exponent).2 * twoTo shift⟩

theorem faithful_ofTens {exponent : Int} (small : exponent.natAbs ≤ 308) (shift : Nat) :
    (ofTens exponent shift).Faithful := by
  obtain ⟨below, above⟩ := roundedTen_within small
  have normal := (roundedTen_bounds small).1
  have positive : 0 < double.quanta (roundedTen exponent.natAbs) :=
    Format.quanta_pos (Nat.zero_lt_of_lt normal)
  have wide := Nat.mul_pos (twoTo_pos 150) (twoTo_pos shift)
  by_cases up : 0 ≤ exponent
  · constructor
    · simp [ofTens, tens_up up, roundedTens, up, twoTo_pos, double.unit_pos]
    · simp only [ofTens, tens_up up, roundedTens, if_pos up]
      nlinarith
    · simp only [ofTens, tens_up up, roundedTens, if_pos up]
      nlinarith
  · have down := tens_down (Int.not_le.mp up)
    constructor
    · simp [ofTens, down, roundedTens, up, twoTo_pos, tenTo_pos, positive]
    · simp only [ofTens, down, roundedTens, if_neg up]
      nlinarith
    · simp only [ofTens, down, roundedTens, if_neg up]
      nlinarith

theorem roundedTens_pos {exponent : Int} (small : exponent.natAbs ≤ 308) :
    0 < (roundedTens exponent).2 :=
  Nat.pos_of_mul_pos_right (faithful_ofTens small 0).positive.2

/-- The decimals of few digits that lie so close to a middle that they have to be looked at. -/
def exceptions : List (Int × Nat) :=
  [(15, 28874659), (-15, 25645849), (-32, 7038531), (-32, 14077062), (-32, 28154124)]

def exempt (exponent : Int) : List Nat :=
  (exceptions.filter fun (other, _) => other = exponent).map Prod.snd

/-- Either all decimals in question are far from all middles of one order of magnitude, or a
bracket settles them. -/
def Settles (exponent : Int) (shift : Nat) : Prop :=
  let c := ofTens exponent shift
  2 * (few * c.a) < (if shift = 0 then 1 else twoTo 24) * c.b ∨ 2 * (2 * twoTo 24 * c.b) < c.a ∨
    c.Settled (exempt exponent) ((Bracket.start c.a c.b).settle (c.reach / c.a + 1) 30)

instance (exponent : Int) (shift : Nat) : Decidable (Settles exponent shift) :=
  inferInstanceAs (Decidable (_ ∨ _ ∨ _))

/-- The first shift at which middles are not all far below the decimals of few digits; thirty shifts
later all are far above. -/
def firstShift (exponent : Int) : Nat :=
  ((tens exponent).1 * twoTo 150 / (tens exponent).2).log2 - 26

/-- The numbers that decimals and middles are multiples of, apart enough before the first shift and
after the last one. -/
def FarOutside (exponent : Int) : Prop :=
  let (a, b) := ((tens exponent).1 * twoTo 150, (tens exponent).2)
  (firstShift exponent = 0 ∨ 2 * (2 * twoTo 24 * (b * twoTo (firstShift exponent - 1))) < a) ∧
    2 * (few * a) < twoTo 24 * (b * twoTo (firstShift exponent + 30))

instance (exponent : Int) : Decidable (FarOutside exponent) := inferInstanceAs (Decidable (_ ∧ _))

theorem far_outside : ∀ steps < (85 : Nat), FarOutside (steps - 46) := by decide +kernel

theorem settles_inside : ∀ steps < (85 : Nat), ∀ k < 30, firstShift (steps - 46) + k < 254 →
    Settles (steps - 46) (firstShift (steps - 46) + k) := by decide +kernel

theorem settles (steps : Nat) (within : steps < 85) (shift : Nat) (short : shift < 254) :
    Settles (steps - 46) shift := by
  obtain ⟨before, after⟩ := far_outside steps within
  have inside := settles_inside steps within
  generalize (steps - 46 : Int) = exponent at before after inside ⊢
  generalize firstShift exponent = first at before after inside
  rcases Nat.lt_or_ge shift first with low | high
  · refine .inr (.inl (Nat.lt_of_le_of_lt ?_ (before.resolve_left (Nat.ne_zero_of_lt low))))
    have power : twoTo shift ≤ twoTo (first - 1) := twoTo_le (by omega)
    simp only [ofTens]
    gcongr
  · obtain ⟨k, rfl⟩ := Nat.exists_eq_add_of_le high
    by_cases near : k < 30
    · exact inside k near short
    · refine .inl (Nat.lt_of_lt_of_le after ?_)
      have power : twoTo (first + 30) ≤ twoTo (first + k) := twoTo_le (by omega)
      rw [if_neg (by omega)]
      simp only [ofTens]
      gcongr

/-- Decimals keep their order to the middles between singles when a rounded power stands in. -/
theorem agrees_ofTens {exponent : Int} (low : -46 ≤ exponent) (high : exponent ≤ 38)
    {d odd shift : Nat}
    (positive : 0 < d) (bounded : d < few) (plain : (exponent, d) ∉ exceptions)
    (parity : odd % 2 = 1) (short : odd < 2 * twoTo 24) (within : shift < 254)
    (full : shift = 0 ∨ twoTo 24 ≤ odd) : (ofTens exponent shift).Agrees d odd := by
  obtain ⟨steps, same⟩ : ∃ steps : Nat, exponent = steps - 46 := ⟨(exponent + 46).toNat, by omega⟩
  have settled := settles steps (by omega) shift within
  have faithful := faithful_ofTens (by omega : exponent.natAbs ≤ 308) shift
  rw [← same] at settled
  rcases settled with below | above | settled
  · apply faithful.agrees_of_far_below
    apply far_of_twice
    have floor : (if shift = 0 then 1 else twoTo 24) ≤ odd := by
      split_ifs
      · omega
      · exact full.resolve_left ‹_›
    nlinarith [Nat.mul_le_mul_right (ofTens exponent shift).a (Nat.le_of_lt bounded),
      Nat.mul_le_mul_right (ofTens exponent shift).b floor]
  · apply faithful.agrees_of_far_above
    apply far_of_twice
    nlinarith [Nat.mul_le_mul_right (ofTens exponent shift).a positive,
      Nat.mul_le_mul_right (ofTens exponent shift).b (Nat.le_of_lt short)]
  · refine settled.agrees ?_ faithful positive bounded parity short ?_
    · exact (Bracket.around_start _ _).settle _ _
    · simpa [exempt] using plain

theorem Agrees.clear {exponent : Int} {d odd shift code : Nat}
    (agrees : (ofTens exponent shift).Agrees d odd) (same : Format.middle code = odd * twoTo shift) :
    Format.Clear (d * (roundedTens exponent).1 * double.unit) (roundedTens exponent).2
      (d * (tens exponent).1 * double.unit) (tens exponent).2 code := by
  have scale : double.unit = twoTo 150 * twoTo 924 := by decide +kernel
  have wide := twoTo_pos 924
  have weighed (t : Nat) : d * t * double.unit = d * (t * twoTo 150) * twoTo 924 := by
    rw [scale]
    ring
  have scaled (t : Nat) :
      odd * twoTo shift * twoTo 924 * t = odd * (t * twoTo shift) * twoTo 924 := by ring
  obtain ⟨above, below, level⟩ := agrees
  simp only [ofTens, precision] at above below level
  constructor
  all_goals
    simp only [same, scaled, weighed]
    generalize twoTo 924 = power at wide
    intro order
  · have kept := above (Nat.lt_of_mul_lt_mul_right order)
    simpa only [← Nat.mul_assoc] using Nat.mul_lt_mul_of_pos_right kept wide
  · have kept := below (Nat.lt_of_mul_lt_mul_right order)
    simpa only [← Nat.mul_assoc, Nat.add_mul] using Nat.mul_lt_mul_of_pos_right kept wide
  · have kept := level (Nat.eq_of_mul_eq_mul_right wide order)
    exact congrArg (· * power) kept

/-- The decimal as a number of quanta of the doubles. -/
theorem nearest_in_doubles (d : Nat) (exponent : Int) :
    single.nearest (d * (tens exponent).1 * double.unit * single.unit)
      ((tens exponent).2 * double.unit) = single.decimal d exponent := by
  rw [Nat.mul_right_comm]
  exact Format.nearest_mul_mul (by decide) (tens_pos exponent).2 double.unit_pos

theorem detour_eq_decimal {exponent : Int} {d : Nat} (small : exponent.natAbs ≤ 308)
    (clear : ∀ code < single.infinity,
      Format.Clear (d * (roundedTens exponent).1 * double.unit) (roundedTens exponent).2
        (d * (tens exponent).1 * double.unit) (tens exponent).2 code) :
    Format.detour d exponent = single.decimal d exponent := by
  rw [← nearest_in_doubles]
  exact Format.through_eq_nearest (roundedTens_pos small) (tens_pos exponent).2 clear

theorem detour_exceptions : ∀ e ∈ exceptions, Format.detour e.2 e.1 = single.decimal e.2 e.1 := by
  decide +kernel

/-- A decimal of few digits comes to the nearest single by way of doubles, for every power of ten that
the digits of a single call for. -/
theorem detour_few {exponent : Int} (low : -46 ≤ exponent) (high : exponent ≤ 38) {d : Nat}
    (positive : 0 < d) (bounded : d < few) : Format.detour d exponent = single.decimal d exponent := by
  by_cases plain : (exponent, d) ∈ exceptions
  · exact detour_exceptions (exponent, d) plain
  · apply detour_eq_decimal (by omega)
    intro code finite
    obtain ⟨odd, shift, same, parity, short, within, full⟩ := Format.middle_eq finite
    have agrees := agrees_ofTens low high positive bounded plain (by omega) short within full
    exact agrees.clear same

end Scales
end Turtle
