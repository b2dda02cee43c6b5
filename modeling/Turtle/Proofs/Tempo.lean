import Turtle.Config.Basic
import Turtle.Proofs.Beat
import Turtle.Proofs.Number.Error
import Turtle.Proofs.Number.Twice

/-! The length of a tick by the rate.
A second is divided by the rate in double precision, and the quotient is rounded again, to whole
nanoseconds. Unless the exact quotient is a tie, it lies much further from every tie than the first
rounding can be off. So the second rounding never goes the wrong way, and the length is a whole number
nearest to the exact quotient. -/
namespace Turtle

theorem roundDiv_le_roundDiv {num num' den : Nat} (positive : 0 < den) (below : num ≤ num') :
    roundDiv num den ≤ roundDiv num' den := by
  apply Nat.le_of_not_lt
  intro above
  have passed := (lt_roundDiv_iff positive _).mp above
  apply Nat.lt_irrefl (roundDiv num' den)
  exact (lt_roundDiv_iff positive _).mpr (by omega)

theorem abs_roundDiv_sub_le {den : Nat} (positive : 0 < den) (num : Nat) :
    |(roundDiv num den - num / den : ℚ)| ≤ 1 / 2 := by
  have part : (0 : ℚ) < den := Nat.cast_pos.mpr positive
  have rounds (n : Nat) : n < roundDiv num den ↔ _ := lt_roundDiv_iff positive n
  generalize roundDiv num den = found at rounds ⊢
  rw [abs_le]
  constructor
  · have stays := mt (rounds found).mpr (Nat.lt_irrefl found)
    have under : (2 * num : ℚ) ≤ (2 * found + 1) * den := by
      exact_mod_cast (by omega : 2 * num ≤ (2 * found + 1) * den)
    have quotient : (num / den : ℚ) ≤ found + 1 / 2 := by
      rw [div_le_iff₀ part]
      linarith
    linarith
  · cases found with
    | zero =>
      have nonneg : (0 : ℚ) ≤ num / den := by positivity
      rw [Nat.cast_zero]
      linarith
    | succ found =>
      have passed := (rounds found).mp (Nat.lt_add_one found)
      have above : ((2 * found + 1) * den : ℚ) ≤ 2 * num := by
        exact_mod_cast (by omega : (2 * found + 1) * den ≤ 2 * num)
      have quotient : (found + 1 / 2 : ℚ) ≤ num / den := by
        rw [le_div_iff₀ part]
        linarith
      rw [Nat.cast_succ]
      linarith

namespace Number

variable {F : Format} {a b c : Nat}

/-- A greater divisor gives no greater quotient. -/
theorem natAbs_quanta_div_le (fine : 0 < F.fractionBits) {s t u : Bool} {ha : a ≤ F.infinity}
    {hb : b ≤ F.infinity} {hc : c ≤ F.infinity} (finite : a < F.infinity) (proper : b ≠ 0)
    (less : b ≤ c) :
    (signed s a ha / signed u c hc : Number F).quanta.natAbs
      ≤ (signed s a ha / signed t b hb : Number F).quanta.natAbs := by
  rcases Nat.lt_or_eq_of_le hc with small | rfl
  · have positive : 0 < F.quanta b := Format.quanta_pos (Nat.pos_of_ne_zero proper)
    have order : F.quanta b ≤ F.quanta c := Format.quanta_le less
    rw [div_of_finite finite small (by omega),
      div_of_finite finite (Nat.lt_of_le_of_lt less small) proper, nearest, nearest,
      natAbs_quanta_signed, natAbs_quanta_signed]
    apply Format.quanta_le
    exact Format.nearest_le_nearest fine (Nat.lt_of_lt_of_le positive order) positive
      (Nat.mul_le_mul_left _ order)
  · have nothing : (signed s a ha / signed u F.infinity hc : Number F) = zero (s != u) := by
      change Number.div _ _ = _
      simp only [Number.div, if_neg (Nat.ne_of_lt finite), if_pos]
    rw [nothing, zero, natAbs_quanta_signed, Format.quanta_zero]
    exact Nat.zero_le _

/-- Whole numbers that fit the significand of a double have themselves as values. -/
theorem value_ofNat {n : Nat} (short : n ≤ 2 ^ 53) :
    (ofNat n : Double).isFinite = true ∧ (ofNat n : Double).value = n := by
  have width : 2 * Format.double.binade = 2 ^ 53 := by decide
  have unit := Format.double.unit_cast_pos.ne'
  have exact := Format.quanta_nearest_of_short (width ▸ short)
  have finite : Format.double.nearest (n * Format.double.unit) 1 < Format.double.infinity := by
    apply Format.lt_of_quanta_lt
    rw [exact]
    calc n * Format.double.unit ≤ 2 ^ 53 * Format.double.unit := Nat.mul_le_mul_right _ short
      _ < Format.double.quanta Format.double.infinity := by decide +kernel
  refine ⟨decide_eq_true finite, ?_⟩
  rw [ofNat, ofRatio, nearest, value_signed, exact, Nat.cast_mul, mul_div_cancel_right₀ _ unit]
  exact one_mul _

/-- The double nearest to the inverse of a whole number is off by half a unit in its last place, with room
for half a quantum. -/
theorem inverse_close {n : Nat} (proper : 0 < n) (short : n ≤ 2 ^ 53) :
    |(1 / ofNat n : Double).value - 1 / n| ≤ 1 / n / 2 ^ 53 + 1 / 2 ^ 100 := by
  obtain ⟨finite, value⟩ := value_ofNat short
  obtain ⟨finite', value'⟩ := value_ofNat (by decide : 1 ≤ 2 ^ 53)
  have positive : (0 : ℚ) < n := Nat.cast_pos.mpr proper
  have divisor : (ofNat n : Double).isZero = false :=
    isZero_of_value_ne finite (value ▸ positive.ne')
  have rounded : (1 / ofNat n : Double).Rounded (1 / n) := by
    have quotient := Rounded.div finite' finite divisor
    rwa [value, value', Nat.cast_one] at quotient
  obtain ⟨code, bounded, same, small⟩ := inUnit_inverse proper
  have inRange : (1 / ofNat n : Double).isFinite = true := by
    rw [same]
    exact decide_eq_true (Format.lt_of_quanta_lt (Nat.lt_of_le_of_lt small (by decide +kernel)))
  have close := rounded.close_of_finite (by decide) inRange
  have width : 2 * (Format.double.binade : ℚ) = 2 ^ 53 := by
    exact_mod_cast (by decide : 2 * Format.double.binade = 2 ^ 53)
  have quantum : 1 / (2 * Format.double.unit : ℚ) ≤ 1 / 2 ^ 100 := by
    apply one_div_le_one_div_of_le (by positivity)
    exact_mod_cast (by decide +kernel : 2 ^ 100 ≤ 2 * Format.double.unit)
  rw [width, abs_of_pos (one_div_pos.mpr positive)] at close
  exact close.trans (add_le_add_right quantum _)

end Number

namespace Span

/-- Seconds in whole nanoseconds are off by half of one. -/
theorem abs_ofSeconds_sub_le {x : Double} (fraction : x.InUnit) :
    |(ofSeconds x - x.value * 10 ^ 9 : ℚ)| ≤ 1 / 2 := by
  obtain ⟨code, bounded, rfl, _⟩ := fraction
  have nanos : (second : ℚ) = 10 ^ 9 := by exact_mod_cast (by decide : second = 10 ^ 9)
  have exact : ((Format.double.quanta code * second : Nat) : ℚ) / Format.double.unit
      = (.signed false code bounded : Double).value * 10 ^ 9 := by
    rw [Number.value_signed, Nat.cast_mul, nanos, Number.sign, if_neg Bool.false_ne_true]
    ring
  rw [← exact]
  exact abs_roundDiv_sub_le Format.double.unit_pos _

/-- An exact quotient nearer to one whole number than to another is nearer by a share of `1 / n` at least.
The error of the double is less, so it cannot send the second rounding astray. -/
theorem ofSeconds_inverse_close {n : Nat} (proper : 0 < n) (short : n ≤ 2 ^ 53) :
    2 * |(ofSeconds (1 / Number.ofNat n) * n - 10 ^ 9 : ℤ)| ≤ n := by
  have positive : (0 : ℚ) < n := Nat.cast_pos.mpr proper
  have long : (n : ℚ) ≤ 2 ^ 53 := by exact_mod_cast short
  have first := Number.inverse_close proper short
  have second := abs_ofSeconds_sub_le (Number.inUnit_inverse proper)
  generalize ofSeconds (1 / Number.ofNat n) = length at second ⊢
  generalize (1 / Number.ofNat n : Double).value = inverse at first second
  have off : |inverse * n - 1| ≤ 1 / 2 ^ 46 := by
    have scaled : inverse * n - 1 = (inverse - 1 / n) * n := by
      rw [sub_mul, one_div_mul_cancel positive.ne']
    calc |inverse * n - 1| = |inverse - 1 / n| * n := by
          rw [scaled, abs_mul, abs_of_pos positive]
      _ ≤ (1 / n / 2 ^ 53 + 1 / 2 ^ 100) * n := mul_le_mul_of_nonneg_right first positive.le
      _ = 1 / 2 ^ 53 + n / 2 ^ 100 := by field_simp
      _ ≤ 1 / 2 ^ 46 := by linarith
  have close : 2 * |(length * n - 10 ^ 9 : ℚ)| < n + 1 := by
    calc 2 * |(length * n - 10 ^ 9 : ℚ)|
        = 2 * |(length - inverse * 10 ^ 9) * n + 10 ^ 9 * (inverse * n - 1)| := by ring_nf
      _ ≤ 2 * (|length - inverse * 10 ^ 9| * n + 10 ^ 9 * |inverse * n - 1|) := by
          refine mul_le_mul_of_nonneg_left ((abs_add_le _ _).trans (le_of_eq ?_)) zero_le_two
          rw [abs_mul, abs_mul, abs_of_pos positive, abs_of_pos (by positivity : (0 : ℚ) < 10 ^ 9)]
      _ ≤ 2 * (1 / 2 * n + 10 ^ 9 * (1 / 2 ^ 46)) := by gcongr
      _ < n + 1 := by linarith
  have whole : ((2 * |(length * n - 10 ^ 9 : ℤ)| : ℤ) : ℚ) < ((n + 1 : ℤ) : ℚ) := by
    push_cast
    exact close
  exact Int.lt_add_one_iff.mp (Int.cast_lt.mp whole)

theorem ofSeconds_inverse_le {m n : Nat} (proper : 0 < m) (more : m ≤ n) :
    ofSeconds (1 / Number.ofNat n) ≤ ofSeconds (1 / Number.ofNat m) := by
  apply roundDiv_le_roundDiv Format.double.unit_pos
  apply Nat.mul_le_mul_right
  exact Number.natAbs_quanta_div_le (by decide) (by decide +kernel)
    (Nat.ne_of_gt (Number.double_whole_pos proper)) (Format.nearest_whole_le_nearest (by decide) more)

theorem near_zero_iff (n : Nat) :
    2 * |((0 : Nat) * n - 10 ^ 9 : ℤ)| ≤ n ↔ 2 * 10 ^ 9 ≤ n := by
  rw [Nat.cast_zero, zero_mul, zero_sub, abs_neg, abs_of_pos (by decide)]
  omega

theorem eq_zero_of_near {length n : Nat} (near : 2 * |(length * n - 10 ^ 9 : ℤ)| ≤ n)
    (fast : 2 * 10 ^ 9 < n) : length = 0 := by
  apply Nat.eq_zero_of_not_pos
  intro some
  have whole : (n : ℤ) ≤ length * n := le_mul_of_one_le_left (by omega) (by omega)
  rw [abs_of_pos (by omega)] at near
  omega

/-- Numbers that a double may not hold exactly are so great that nothing is left of a second. -/
theorem ofSeconds_inverse_near {n : Nat} (proper : 0 < n) :
    2 * |(ofSeconds (1 / Number.ofNat n) * n - 10 ^ 9 : ℤ)| ≤ n := by
  rcases Nat.le_total n (2 ^ 53) with short | long
  · exact ofSeconds_inverse_close proper short
  · have edge := ofSeconds_inverse_close (by decide) (Nat.le_refl (2 ^ 53))
    have less := ofSeconds_inverse_le (by decide) long
    rw [eq_zero_of_near edge (by decide), Nat.le_zero] at less
    rw [less, near_zero_iff]
    omega

end Span

theorem Config.invalid?_of_rate {c : Config} (valid : c.invalid? = none) {n : Nat} (proper : 0 < n) :
    { c with targetRate := n }.invalid? = none := by
  unfold invalid? at valid ⊢
  split at valid
  · cases valid
  · split at valid
    · cases valid
    · split at valid
      · cases valid
      · rename_i room speed point
        rw [if_neg room, if_neg speed, if_neg point, if_neg (Nat.ne_of_gt proper)]

theorem Number.InUnit.bounds {x : Single} (fraction : x.InUnit) : 0 ≤ x ∧ x ≤ 1 := by
  obtain ⟨code, bounded, rfl, small⟩ := fraction
  have one : (1 : Single) = .signed false 0x3F800000 (by decide) := by decide
  refine ⟨zero_le_unsigned, ?_⟩
  rw [one, unsigned_le_iff]
  apply Nat.le_of_not_lt
  intro more
  exact Nat.not_lt_of_le small (single_one ▸ Format.quanta_lt more)

namespace Pacer

theorem tickLength_ofPace (p : Pace) :
    (ofPace p).tickLength = Span.ofSeconds (1 / Number.ofNat (max 1 p.rate)) := by
  rw [ofPace, Pace.tickLength]

/-- For every rate, zero being taken as one, the length of a tick in nanoseconds is a whole number nearest
to the quotient of a second by the rate. So a tick has a length at all rates below two per nanosecond and
none above, though such rates are valid; a greater rate makes no longer ticks; and in seconds the length
is between zero and one. -/
theorem tickLength_nearest (p : Pace) :
    let n := max 1 p.rate
    let length := (ofPace p).tickLength
    2 * |(length * n - 10 ^ 9 : ℤ)| ≤ n ∧
    (n < 2 * 10 ^ 9 → 0 < length) ∧
    (2 * 10 ^ 9 < n → length = 0) ∧
    (∀ c : Config, c.invalid? = none → 0 < p.rate →
      { c with targetRate := p.rate }.invalid? = none ∧
        (ofPace { c with targetRate := p.rate }.pace).tickLength = length) ∧
    (∀ q : Pace, p.rate ≤ q.rate → (ofPace q).tickLength ≤ length) ∧
    0 ≤ (ofPace p).dt ∧ (ofPace p).dt ≤ 1 := by
  intro n length
  have proper : 0 < n := Nat.lt_of_lt_of_le Nat.one_pos (Nat.le_max_left 1 p.rate)
  have near : 2 * |(length * n - 10 ^ 9 : ℤ)| ≤ n := by
    simp only [length, tickLength_ofPace]
    exact Span.ofSeconds_inverse_near proper
  refine ⟨near, ?_, ?_, ?_, ?_, (inUnit_dt p).bounds⟩
  · intro slow
    apply Nat.pos_of_ne_zero
    intro none
    rw [none, Span.near_zero_iff] at near
    omega
  · exact Span.eq_zero_of_near near
  · intro c valid given
    exact ⟨Config.invalid?_of_rate valid given, rfl⟩
  · intro q faster
    simp only [length, tickLength_ofPace]
    exact Span.ofSeconds_inverse_le proper (max_le_max (Nat.le_refl 1) faster)

/-- At 5120 ticks per second the quotient is a tie, 195312.5 nanoseconds, and the double is above it. A
rate just above two per nanosecond leaves nothing. -/
theorem tick_lengths_of_rates :
    let tie : Pace := { Pace.standard with rate := 5120 }
    let fast : Pace := { Pace.standard with rate := 2000000001 }
    (ofPace tie).tickLength = 195313 ∧ 0 < (ofPace tie).tickLength ∧
      (ofPace fast).tickLength = 0 ∧
      { Config.standard with targetRate := 2000000001 }.invalid? = none ∧
      (ofPace fast).tickLength ≤ (ofPace tie).tickLength := by
  intro tie fast
  have length : (ofPace tie).tickLength = 195313 := by decide +kernel
  have valid : Config.standard.invalid? = none := by decide +kernel
  obtain ⟨_, lasting, _, _, fewer, _⟩ := tickLength_nearest tie
  obtain ⟨_, _, nothing, accepted, _⟩ := tickLength_nearest fast
  exact ⟨length, lasting (by decide), nothing (by decide), (accepted _ valid (by decide)).1,
    fewer fast (by decide +kernel)⟩

end Pacer
end Turtle
