import Turtle.Proofs.Decimal.Fewest
import Turtle.Proofs.Json.Scaling

/-! How a single is spelled in JSON text, and what is made of the spelling.
Every layout spells the shortest decimal of the single as a number that is read as a double. -/
namespace Turtle

theorem head_toDigits {d : Nat} (positive : 0 < d) : (Nat.toDigits 10 d).head? ≠ some '0' := by
  induction d using Nat.strongRecOn with
  | _ d ih =>
    rw [Nat.toDigits_eq_if (by decide)]
    split_ifs with small
    · simpa using Nat.ne_of_gt positive
    · have before : 0 < d / 10 := by omega
      have other := ih (d / 10) (by omega) before
      obtain ⟨c, cs, digits⟩ :=
        List.exists_cons_of_ne_nil (Nat.toDigits_ne_nil (n := d / 10) (b := 10))
      rw [digits] at other ⊢
      exact other

namespace Json

namespace Written

/-- With few digits, nothing of the number that is written gets lost. -/
theorem significand_of_short {n : Written} (short : n.numeral.significand < twoTo 64) :
    n.significand = n.numeral.significand ∧ n.exponent = n.numeral.exponent := by
  have first : Numeral.valueFrom 0 n.whole < twoTo 64 :=
    Nat.lt_of_le_of_lt Numeral.le_valueFrom short
  have whole := gather_of_lt first
  have places : gather (Numeral.valueFrom 0 n.whole) n.places = _ := gather_of_lt short
  simp [significand, exponent, shift, numeral, whole, places, Numeral.value]
  omega

end Written

/-- A text that spells a rational as a number with a point or an exponent. -/
def Spells (text : List Char) (m : Numeral) : Prop :=
  ∃ n : Written, n.text = text ∧ n.numeral = m ∧ n.IsReal

theorem toDigits_numeric (d : Nat) : (Nat.toDigits 10 d).all Char.isDigit := by
  apply List.all_eq_true.mpr
  intro c inside
  exact Nat.isDigit_of_mem_toDigits (by decide) (by decide) inside

/-- The text of a sign. -/
def minus (negative : Bool) : List Char := if negative then ['-'] else []

variable {d : Nat} {k lead : Int}

theorem spells_scientific (positive : 0 < d) (negative : Bool)
    (same : lead = k + (Nat.toDigits 10 d).length - 1) (modest : lead.natAbs ≤ greatestExponent) :
    Spells (minus negative ++ Layout.scientific (Nat.toDigits 10 d) lead) ⟨negative, d, k⟩ := by
  have plain := head_toDigits positive
  have numeric := toDigits_numeric d
  have value := Numeral.valueFrom_toDigits_zero (n := d)
  obtain ⟨first, more, digits⟩ := List.exists_cons_of_ne_nil (Nat.toDigits_ne_nil (n := d) (b := 10))
  rw [digits] at plain numeric value same ⊢
  let power : Power := ⟨'e', some (lead < 0), Nat.toDigits 10 lead.natAbs, .inl rfl,
    Nat.toDigits_ne_nil, toDigits_numeric _⟩
  let n : Written := ⟨negative, [first], more, some power, by simp, by simp_all,
    fun zero => absurd zero plain, by simp_all⟩
  have powerValue : power.value = lead := by
    have digits := Numeral.valueFrom_toDigits_zero (n := lead.natAbs)
    simp only [power, Power.value, Power.downward, Numeral.value, digits, Option.some.injEq,
      decide_eq_true_eq]
    split_ifs <;> omega
  have size : (first :: more).length = more.length + 1 := rfl
  refine ⟨n, ?_, ?_, rfl, ?_⟩
  · cases more <;> simp [n, power, Written.text, Written.pointText, Written.powerText, Power.text,
      minus, Layout.scientific]
  · have joined : Numeral.valueFrom (Numeral.value [first]) more = d := value
    simp only [Written.numeral, n, joined, Option.elim_some, powerValue, Numeral.mk.injEq, true_and]
    omega
  · simpa [n, power, Numeral.value] using modest

theorem spells_writtenOut (positive : 0 < d) (negative : Bool)
    (same : lead = k + (Nat.toDigits 10 d).length - 1) :
    Spells (minus negative ++ Layout.jsonSingle.writtenOut (Nat.toDigits 10 d) lead)
      (if 0 ≤ k then ⟨negative, 10 * (d * tenTo k.toNat), -1⟩ else ⟨negative, d, k⟩) := by
  have plain := head_toDigits positive
  have numeric := toDigits_numeric d
  have value := Numeral.valueFrom_toDigits_zero (n := d)
  have proper := Nat.toDigits_ne_nil (n := d) (b := 10)
  generalize Nat.toDigits 10 d = digits at *
  have length : 0 < digits.length := List.length_pos_iff.mpr proper
  unfold Layout.writtenOut
  by_cases small : lead < 0
  · have fractional : ¬ 0 ≤ k := by omega
    let n : Written := ⟨negative, ['0'], Layout.zeros (lead.natAbs - 1) ++ digits, none, by simp, rfl,
      fun _ => rfl, by simp_all [Layout.zeros]⟩
    rw [if_pos small, if_neg fractional]
    refine ⟨n, ?_, ?_, ?_, by simp [n]⟩
    · simp [n, Written.text, Written.pointText, Written.powerText, minus, proper]
    · have zero : Numeral.value ['0'] = 0 := rfl
      have size : (Layout.zeros (lead.natAbs - 1) ++ digits).length
          = lead.natAbs - 1 + digits.length := by simp [Layout.zeros]
      simp only [Written.numeral, n, zero, size, Numeral.valueFrom_append, Numeral.valueFrom_zeros,
        Nat.zero_mul, value, Option.elim_none, Numeral.mk.injEq, true_and]
      omega
    · simp [n, Written.isInteger, proper]
  · have next : lead.toNat + 1 = k + digits.length := by omega
    rw [if_neg small]
    by_cases up : 0 ≤ k
    · have short : digits.length ≤ lead.toNat + 1 := by omega
      have shift : lead.toNat + 1 - digits.length = k.toNat := by omega
      let n : Written := ⟨negative, digits ++ Layout.zeros k.toNat, ['0'], none, by simp [proper],
        by simp_all [Layout.zeros], by simp_all, rfl⟩
      rw [if_pos short, if_pos up, shift]
      refine ⟨n, ?_, ?_, rfl, by simp [n]⟩
      · simp [n, Written.text, Written.pointText, Written.powerText, minus, Layout.jsonSingle]
      · have zero : Numeral.digitValue '0' = 0 := rfl
        simp [Written.numeral, n, Numeral.value, Numeral.valueFrom_append, Numeral.valueFrom_zeros,
          Numeral.valueFrom_cons, value, zero]
    · have long : ¬ digits.length ≤ lead.toNat + 1 := by omega
      have filled : digits.take (lead.toNat + 1) ≠ [] := by simp [proper]
      have left : digits.drop (lead.toNat + 1) ≠ [] := by simpa using long
      have first : (digits.take (lead.toNat + 1)).head? = digits.head? := by simp [List.head?_take]
      rw [← List.take_append_drop (lead.toNat + 1) digits, List.all_append, Bool.and_eq_true]
        at numeric
      let n : Written := ⟨negative, digits.take (lead.toNat + 1), digits.drop (lead.toNat + 1), none,
        filled, numeric.1, fun zero => absurd (first ▸ zero) plain, numeric.2⟩
      rw [if_neg long, if_neg up]
      refine ⟨n, ?_, ?_, ?_, by simp [n]⟩
      · simp [n, Written.text, Written.pointText, Written.powerText, minus, left]
      · have joined :=
          @Numeral.valueFrom_append 0 (digits.take (lead.toNat + 1)) (digits.drop (lead.toNat + 1))
        rw [List.take_append_drop, value] at joined
        simp only [Written.numeral, n, Numeral.value, ← joined, List.length_drop, Option.elim_none,
          Numeral.mk.injEq, true_and]
        omega
      · simp [n, Written.isInteger, left]

theorem convert_signed (negative : Bool) (x : Double) :
    ((signed negative x).convert : Single) = if negative then -x.convert else x.convert := by
  cases negative with
  | false => rfl
  | true =>
    cases x with
    | nan => rfl
    | signed s code bounded =>
      change Number.convert (.signed (!s) code bounded) = Number.neg (Number.convert _)
      simp only [Number.convert]
      split_ifs <;> rfl

/-- A spelling with few digits and a small exponent stands for the single that its digits come to. -/
theorem Spells.single? {text : List Char} {negative : Bool} {significand code : Nat} {exponent : Int}
    (spells : Spells text ⟨negative, significand, exponent⟩) (positive : 0 < significand)
    (short : significand ≤ 2 * Format.double.binade) (small : exponent.natAbs ≤ greatestPower)
    (same : Format.detour significand exponent = code) (finite : code < Format.single.infinity) :
    ∃ n : Written, n.text = text ∧ n.single? = some (.signed negative code (Nat.le_of_lt finite)) := by
  obtain ⟨n, rfl, numeral, real⟩ := spells
  subst same
  have wide : 2 * Format.double.binade < twoTo 64 := by decide +kernel
  have fits : significand < twoTo 64 := Nat.lt_of_le_of_lt short wide
  have kept := n.significand_of_short (by rw [numeral]; exact fits)
  obtain ⟨inRange, converted⟩ := scaled_convert short finite
  have goes : scale? significand exponent = some (scaled significand exponent) := by
    by_cases up : 0 ≤ exponent
    · obtain ⟨power, rfl⟩ := Int.eq_ofNat_of_zero_le up
      rw [scale?_up positive fits (by simpa using small), if_pos inRange]
    · exact scale?_down positive fits (by omega) small
  refine ⟨n, rfl, ?_⟩
  have sign : n.negative = negative := congrArg Numeral.negative numeral
  simp only [Written.single?, real.literal?, kept, numeral, goes, Option.map_some, Literal.single,
    convert_signed, converted, sign, Option.some.injEq]
  cases negative <;> rfl

/-- A whole number that is spelled with one zero after the point loses it again without rounding. -/
theorem detour_tenth {m : Nat} (short : m ≤ 2 * Format.double.binade) :
    Format.detour (10 * m) (-1) = Format.single.nearest (m * Format.single.unit) 1 := by
  have ten : roundedTens (-1) = (Format.double.unit, 10 * Format.double.unit) := by decide +kernel
  have exact := Format.quanta_nearest_of_short short
  have wide : 0 < 10 * Format.double.unit := Nat.mul_pos (by decide) Format.double.unit_pos
  have cancel : Format.double.nearest (10 * m * Format.double.unit * Format.double.unit)
      (10 * Format.double.unit) = Format.double.nearest (m * Format.double.unit) 1 := by
    have scaled : Format.double.nearest (m * Format.double.unit * (10 * Format.double.unit)) _ = _ :=
      Format.nearest_mul_mul (by decide) Nat.one_pos wide
    have arranged : 10 * m * Format.double.unit * Format.double.unit
        = m * Format.double.unit * (10 * Format.double.unit) := by ring
    rw [arranged, ← scaled, Nat.one_mul]
  simp only [Format.detour, Format.through, ten, cancel, exact]
  have once : Format.single.nearest (m * Format.single.unit * Format.double.unit) _ = _ :=
    Format.nearest_mul_mul (by decide) Nat.one_pos Format.double.unit_pos
  rw [Nat.one_mul] at once
  rw [← once, Nat.mul_right_comm]

theorem toList_written {negative : Bool} {code : Nat} (finite : code < Format.single.infinity) :
    ((.signed negative code (Nat.le_of_lt finite) : Single).json .jsonSingle).toList
      = minus negative ++ Layout.jsonSingle.magnitude Format.single code := by
  have inRange : (.signed negative code (Nat.le_of_lt finite) : Single).isFinite = true :=
    decide_eq_true finite
  rw [Number.json, if_pos inRange, Number.written, if_neg (Nat.ne_of_lt finite), String.toList_append,
    String.toList_ofList]
  cases negative <;> rfl

theorem exists_written_zero (negative : Bool) :
    ∃ n : Written, n.text = minus negative ++ Layout.jsonSingle.magnitude Format.single 0 ∧
      n.single? = some (.zero negative) := by
  have zero : Layout.jsonSingle.magnitude Format.single 0 = ['0', '.', '0'] := by decide +kernel
  let n : Written := ⟨negative, ['0'], ['0'], none, by simp, rfl, fun _ => rfl, rfl⟩
  have real : n.IsReal := ⟨rfl, by simp [n]⟩
  have gathered : (gather (gather 0 ['0']).1 ['0']).1 = 0 := by decide +kernel
  have none : n.significand = 0 := gathered
  refine ⟨n, by simp [n, zero, Written.text, Written.pointText, Written.powerText, minus], ?_⟩
  have still : ((.zero false : Double).convert : Single) = .zero false := by decide +kernel
  simp only [Written.single?, real.literal?, none, scale?_zero, Option.map_some, Literal.single,
    convert_signed, still]
  cases negative <;> rfl

theorem exists_written_json {x : Single} (finite : x.isFinite = true) :
    ∃ n : Written, n.text = (x.json .jsonSingle).toList ∧ n.single? = some x := by
  cases x with
  | nan => cases finite
  | signed negative code bounded =>
    have inRange : code < Format.single.infinity := of_decide_eq_true finite
    rw [toList_written inRange]
    cases code with
    | zero => exact exists_written_zero negative
    | succ code =>
      obtain ⟨d, k, found, hit, low, before⟩ := Format.shortest_spec inRange
      have high := hit.le_high_power inRange
      have positive := hit.positive
      have few := hit.lt_limit inRange before
      have limit : greatestPower = 308 := rfl
      have excess : greatestExponent = 2147483647 := by decide +kernel
      have wide : 2 * Format.double.binade = 9007199254740992 := by decide +kernel
      have detour := Scales.detour_hit hit inRange low
      have short := (Nat.length_toDigits_le_iff (b := 10) (n := d) (k := 9) (by decide) (by decide)).mpr
        (by omega)
      have tie : Layout.jsonSingle.tie = .even := rfl
      obtain ⟨lead, same⟩ : ∃ lead, lead = k + (Nat.toDigits 10 d).length - 1 := ⟨_, rfl⟩
      simp only [Layout.magnitude, tie, found, ← same]
      split_ifs with positional
      · have written := spells_writtenOut positive negative same
        simp [Layout.isPositional, Layout.jsonSingle] at positional
        split_ifs at written with up
        · have size : d * tenTo k.toNat < tenTo 13 := by
            have digits := (Nat.length_toDigits_le_iff (b := 10) (n := d) (by decide)
              Nat.length_toDigits_pos).mp (Nat.le_refl _)
            calc d * tenTo k.toNat < 10 ^ (Nat.toDigits 10 d).length * 10 ^ k.toNat :=
                  Nat.mul_lt_mul_of_pos_right digits (tenTo_pos _)
              _ = 10 ^ ((Nat.toDigits 10 d).length + k.toNat) := (Nat.pow_add ..).symm
              _ ≤ 10 ^ 13 := Nat.pow_le_pow_right (by decide) (by omega)
          have thirteen : tenTo 13 = 10000000000000 := by decide +kernel
          have same : k.toNat = k.natAbs := by omega
          have rounds := hit.rounds
          simp only [Format.decimal, tens_up up, ← same] at rounds
          rw [← detour_tenth (by omega)] at rounds
          exact written.single? (Nat.mul_pos (by decide) (Nat.mul_pos positive (tenTo_pos _)))
            (by omega) (by decide) rounds inRange
        · exact written.single? positive (by omega) (by omega) detour inRange
      · have written := spells_scientific positive negative same (by omega)
        exact written.single? positive (by omega) (by omega) detour inRange

end Json
end Turtle
