import Turtle.Decimal.Shortest
import Turtle.Proofs.Decimal.FewDigits

/-! The shortest decimal of a single, read by way of doubles.
It lies on the coarsest grid with a point that rounds to the single, and next to the single on that
grid. So it has few digits, or it is far from both ends of the interval that rounds to the single. -/
namespace Turtle

theorem twoTo_le_tenTo (n : Nat) : twoTo (3 * n) ≤ tenTo n := by
  induction n with
  | zero => exact Nat.le_refl 1
  | succ n ih =>
    have eight : twoTo 3 = 8 := rfl
    rw [Nat.mul_succ, twoTo_add, tenTo_succ, eight]
    omega

theorem lt_twoTo_log2 (n : Nat) : n < twoTo (n.log2 + 1) := by
  rw [twoTo_eq_pow]
  exact Nat.lt_log2_self

theorem lt_tenTo_log2 (n : Nat) : n < tenTo (n.log2 / 3 + 1) := by
  calc n < twoTo (n.log2 + 1) := lt_twoTo_log2 n
    _ ≤ twoTo (3 * (n.log2 / 3 + 1)) := twoTo_le (by omega)
    _ ≤ tenTo (n.log2 / 3 + 1) := twoTo_le_tenTo _

namespace Format

variable {F : Format} {code d : Nat} {k : Int}

theorem decimal_eq_iff (fine : 0 < F.fractionBits) (finite : code + 1 < F.infinity) :
    F.decimal d k = code + 1 ↔
      if (code + 1) % 2 = 0 then
        (F.quanta code + F.quanta (code + 1)) * (tens k).2 ≤ d * (2 * F.unit * (tens k).1) ∧
          d * (2 * F.unit * (tens k).1) ≤ (F.quanta (code + 1) + F.quanta (code + 1 + 1)) * (tens k).2
      else
        (F.quanta code + F.quanta (code + 1)) * (tens k).2 < d * (2 * F.unit * (tens k).1) ∧
          d * (2 * F.unit * (tens k).1)
            < (F.quanta (code + 1) + F.quanta (code + 1 + 1)) * (tens k).2 := by
  have proper := (tens_pos k).2
  have above : code + 1 < F.decimal d k ↔ _ := lt_nearest_iff fine proper finite
  have below : code < F.decimal d k ↔ _ := lt_nearest_iff fine proper (Nat.lt_of_succ_lt finite)
  have twice : 2 * (d * (tens k).1 * F.unit) = d * (2 * F.unit * (tens k).1) := by ring
  rw [twice] at above below
  split_ifs <;> omega

/-- The distance between points of a grid and twice the magnitude of a code, in common units. -/
def stride (F : Format) (k : Int) : Nat := 2 * F.unit * (tens k).1

theorem stride_pos (F : Format) (k : Int) : 0 < F.stride k :=
  Nat.mul_pos (Nat.mul_pos Nat.two_pos F.unit_pos) (tens_pos k).1

def twice (F : Format) (code : Nat) (k : Int) : Nat := 2 * F.quanta code * (tens k).2

/-- The point of a grid at a code or before it. -/
def floorOn (F : Format) (code : Nat) (k : Int) : Nat := F.twice code k / F.stride k

/-- A hit on a grid is next to the code, and the nearer of the two neighbours if both are hits. -/
structure Hit (F : Format) (code d : Nat) (k : Int) : Prop where
  rounds : F.decimal d k = code
  beside : d = F.floorOn code k + 1 ∨ d = F.floorOn code k ∧
    (F.decimal (d + 1) k = code → 2 * (F.twice code k - d * F.stride k) ≤ F.stride k)

theorem onGrid?_cases (fine : 0 < F.fractionBits) (finite : code + 1 < F.infinity) :
    (∃ d, F.onGrid? .even (code + 1) k = some d ∧ F.Hit (code + 1) d k) ∨
      F.onGrid? .even (code + 1) k = none ∧
        F.decimal (F.floorOn (code + 1) k + 1) k ≠ code + 1 := by
  have inside (d : Nat) : (if (code + 1) % 2 = 0 then
      decide ((F.quanta code + F.quanta (code + 1)) * tenTo (-k).toNat ≤ d * F.stride k) &&
        decide (d * F.stride k ≤ (F.quanta (code + 1) + F.quanta (code + 1 + 1)) * tenTo (-k).toNat)
      else
      decide ((F.quanta code + F.quanta (code + 1)) * tenTo (-k).toNat < d * F.stride k) &&
        decide (d * F.stride k < (F.quanta (code + 1) + F.quanta (code + 1 + 1)) * tenTo (-k).toNat))
      = decide (F.decimal d k = code + 1) := by
    apply Bool.eq_iff_iff.mpr
    rw [decide_eq_true_iff, decimal_eq_iff fine finite]
    split_ifs <;> rw [Bool.and_eq_true, decide_eq_true_iff, decide_eq_true_iff] <;> exact Iff.rfl
  have step : 2 * F.unit * tenTo k.toNat = F.stride k := rfl
  have value : 2 * F.quanta (code + 1) * tenTo (-k).toNat = F.twice (code + 1) k := rfl
  have base : F.twice (code + 1) k / F.stride k = F.floorOn (code + 1) k := rfl
  have under := Nat.div_mul_le_self (F.twice (code + 1) k) (F.stride k)
  have past := Nat.lt_mul_div_succ (F.twice (code + 1) k) (F.stride_pos k)
  simp only [onGrid?, Nat.add_sub_cancel, step, value, base, inside]
  rw [base] at under past
  generalize point : F.floorOn (code + 1) k = d at under past ⊢
  rw [Nat.mul_comm, Nat.add_one_mul] at past
  have lower (rounds : F.decimal d k = code + 1)
      (close : F.decimal (d + 1) k = code + 1 →
        2 * (F.twice (code + 1) k - d * F.stride k) ≤ F.stride k) :
      F.Hit (code + 1) d k := ⟨rounds, .inr ⟨point.symm, close⟩⟩
  have upper (rounds : F.decimal (d + 1) k = code + 1) : F.Hit (code + 1) (d + 1) k :=
    ⟨rounds, .inl (congrArg (· + 1) point.symm)⟩
  by_cases first : F.decimal d k = code + 1 <;> by_cases second : F.decimal (d + 1) k = code + 1 <;>
    simp only [first, second, decide_true, decide_false]
  · left
    rw [Nat.add_one_mul]
    split_ifs
    · exact ⟨d, rfl, lower first fun _ => by omega⟩
    · exact ⟨d + 1, rfl, upper second⟩
    · rcases Nat.mod_two_eq_zero_or_one d with even | odd
      · exact ⟨d, by simp [even], lower first fun _ => by omega⟩
      · exact ⟨d + 1, by simp [odd], upper second⟩
  · exact .inl ⟨d, rfl, lower first fun other => absurd other second⟩
  · exact .inl ⟨d + 1, rfl, upper second⟩
  · exact .inr ⟨trivial, second⟩

theorem floorOn_le (code : Nat) (k : Int) : F.floorOn code k * F.stride k ≤ F.twice code k :=
  Nat.div_mul_le_self _ _

theorem lt_floorOn_succ (code : Nat) (k : Int) :
    F.twice code k < (F.floorOn code k + 1) * F.stride k := by
  rw [Nat.mul_comm]
  exact Nat.lt_mul_div_succ _ (F.stride_pos k)

/-- A grid with small enough steps has a hit right after the code. -/
theorem decimal_floorOn_succ (fine : 0 < F.fractionBits) (finite : code + 1 < F.infinity)
    (narrow : F.stride k < F.gap (code + 1 + 1) * (tens k).2) :
    F.decimal (F.floorOn (code + 1) k + 1) k = code + 1 := by
  have under := floorOn_le (F := F) (code + 1) k
  have past := lt_floorOn_succ (F := F) (code + 1) k
  have climb := quanta_add_gap (F := F) (code + 1)
  have before := Nat.mul_lt_mul_of_pos_right (quanta_lt (F := F) (Nat.lt_add_one code))
    (tens_pos k).2
  rw [decimal_eq_iff fine finite, ← climb]
  change if _ then _ ≤ (F.floorOn (code + 1) k + 1) * F.stride k ∧
      (F.floorOn (code + 1) k + 1) * F.stride k ≤ _
    else _ < (F.floorOn (code + 1) k + 1) * F.stride k ∧
      (F.floorOn (code + 1) k + 1) * F.stride k < _
  rw [Nat.add_one_mul] at past ⊢
  simp only [twice, Nat.add_mul, Nat.two_mul] at under past ⊢
  split_ifs <;> omega

/-- A search goes no further than to a grid with small enough steps, and passes only wider ones. -/
theorem firstOnGrid_spec (fine : 0 < F.fractionBits) (finite : code + 1 < F.infinity) (count : Nat)
    (start : Int) (enough : ∃ last, start - last < count ∧ last ≤ start ∧
      F.stride last < F.gap (code + 1 + 1) * (tens last).2) :
    ∃ d k, F.firstOnGrid .even (code + 1) count start = (d, k) ∧ F.Hit (code + 1) d k ∧
      k ≤ start ∧ (k = start ∨ F.gap (code + 1 + 1) * (tens (k + 1)).2 ≤ F.stride (k + 1)) ∧
      ∀ last ≤ start, F.stride last < F.gap (code + 1 + 1) * (tens last).2 → last ≤ k := by
  induction count generalizing start with
  | zero =>
    obtain ⟨last, within, below, -⟩ := enough
    omega
  | succ count ih =>
    unfold firstOnGrid
    rcases onGrid?_cases (k := start) fine finite with ⟨d, found, hit⟩ | ⟨missed, other⟩
    · simp only [found]
      exact ⟨d, start, rfl, hit, Int.le_refl _, .inl rfl, fun last below _ => below⟩
    · simp only [missed]
      have wide : ¬ F.stride start < F.gap (code + 1 + 1) * (tens start).2 :=
        fun narrow => other (decimal_floorOn_succ fine finite narrow)
      have apart {last : Int} (below : last ≤ start)
          (narrow : F.stride last < F.gap (code + 1 + 1) * (tens last).2) : last ≤ start - 1 := by
        rcases Int.lt_or_eq_of_le below with less | rfl
        · exact Int.le_sub_one_of_lt less
        · exact absurd narrow wide
      obtain ⟨last, within, below, narrow⟩ := enough
      have reached := apart below narrow
      obtain ⟨d, k, found, hit, high, before, least⟩ := ih _ ⟨last, by omega, reached, narrow⟩
      refine ⟨d, k, found, hit, by omega, .inr ?_, fun other below narrow =>
        least other (apart below narrow) narrow⟩
      rcases before with rfl | wider
      · simpa using Nat.le_of_not_lt wide
      · exact wider

theorem shortest_spec {code : Nat} (finite : code + 1 < single.infinity) :
    ∃ d k, single.shortest .even (code + 1) = (d, k) ∧ single.Hit (code + 1) d k ∧ -46 ≤ k ∧
      single.gap (code + 1 + 1) * (tens (k + 1)).2 ≤ single.stride (k + 1) := by
  unfold shortest
  rw [if_neg (Nat.succ_ne_zero code)]
  generalize size : (single.quanta (code + 1 + 1) / single.unit).log2 / 3 + 1 = start
  have step : 0 < single.gap (code + 1 + 1) := by
    rw [gap_succ]
    exact twoTo_pos _
  have fine : single.stride (-46) < single.gap (code + 1 + 1) * (tens (-46)).2 := by
    have smallest : single.stride (-46) < 1 * (tens (-46)).2 := by decide +kernel
    exact Nat.lt_of_lt_of_le smallest (Nat.mul_le_mul_right _ step)
  have bits : single.quantumBits = 149 := rfl
  obtain ⟨d, k, found, hit, high, before, least⟩ := firstOnGrid_spec (by decide) finite
    (start + single.quantumBits + 1) start ⟨-46, by omega, by omega, fine⟩
  refine ⟨d, k, found, hit, least (-46) (by omega) fine, ?_⟩
  rcases before with rfl | wider
  · -- the coarsest grid has steps beyond the next code
    have beyond := lt_tenTo_log2 (single.quanta (code + 1 + 1) / single.unit)
    rw [size] at beyond
    have reached := (Nat.div_lt_iff_lt_mul single.unit_pos).mp beyond
    have climb := quanta_add_gap (F := single) (code + 1)
    have whole : ((start : Int) + 1).natAbs = start + 1 := by omega
    simp only [stride, tens_up (by omega : 0 ≤ (start : Int) + 1), whole, tenTo_succ]
    nlinarith [tenTo_pos start, single.unit_pos]
  · exact wider

theorem quanta_lt_gap (code : Nat) : F.quanta code < 2 * F.binade * F.gap (code + 1) := by
  have positive := F.binade_pos
  rw [gap_succ, quanta]
  split_ifs with low
  · have step := twoTo_pos (code / F.binade - 1)
    nlinarith
  · rw [shiftLeft_eq_mul]
    have part := Nat.mod_lt code positive
    exact Nat.mul_lt_mul_of_pos_right (by omega) (twoTo_pos _)

theorem gap_succ_le (code : Nat) : F.gap (code + 1 + 1) ≤ 2 * F.gap (code + 1) := by
  rw [gap_succ, gap_succ, ← twoTo_succ]
  have next : (code + 1) / F.binade ≤ code / F.binade + 1 := by
    rw [← Nat.add_div_right code F.binade_pos]
    exact Nat.div_le_div_right (Nat.add_le_add_left F.binade_pos code)
  exact twoTo_le (by omega)

theorem Hit.positive (hit : F.Hit (code + 1) d k) : 0 < d := by
  apply Nat.pos_of_ne_zero
  rintro rfl
  have rounds := hit.rounds
  simp [decimal, nearest, roundDiv] at rounds

theorem stride_succ_mul (k : Int) :
    F.stride (k + 1) * (tens k).2 = 10 * (F.stride k * (tens (k + 1)).2) := by
  by_cases up : 0 ≤ k
  · have next : (k + 1).toNat = k.toNat + 1 := by omega
    have none : (-k).toNat = 0 := by omega
    have none' : (-(k + 1)).toNat = 0 := by omega
    simp only [stride, tens, next, none, none', tenTo_succ]
    ring
  · have next : (-k).toNat = (-(k + 1)).toNat + 1 := by omega
    have none : k.toNat = 0 := by omega
    have none' : (k + 1).toNat = 0 := by omega
    simp only [stride, tens, next, none, none', tenTo_succ]
    ring

theorem Hit.le_high (hit : single.Hit (code + 1) d k) (finite : code + 1 < single.infinity) :
    d * single.stride k
      ≤ (single.quanta (code + 1) + single.quanta (code + 1 + 1)) * (tens k).2 := by
  have rounds := (decimal_eq_iff (by decide) finite).mp hit.rounds
  split_ifs at rounds
  · exact rounds.2
  · exact Nat.le_of_lt rounds.2

/-- No more than nine digits or so: on the grid before, no point was in reach. -/
theorem Hit.lt_limit (hit : single.Hit (code + 1) d k) (finite : code + 1 < single.infinity)
    (before : single.gap (code + 1 + 1) * (tens (k + 1)).2 ≤ single.stride (k + 1)) :
    d < 400000000 := by
  have high := hit.le_high finite
  have climb := quanta_add_gap (F := single) (code + 1)
  have narrow := quanta_lt_gap (F := single) (code + 1)
  have size : single.binade = 8388608 := by decide
  have relation := stride_succ_mul (F := single) k
  have proper := Nat.mul_pos (single.stride_pos k) (tens_pos (k + 1)).2
  rw [size] at narrow
  rw [← climb] at high
  generalize single.gap (code + 1 + 1) = gap at *
  have digits : single.quanta (code + 1) + (single.quanta (code + 1) + gap) ≤ 33554433 * gap := by
    omega
  apply Nat.lt_of_mul_lt_mul_right (a := single.stride k * (tens (k + 1)).2)
  calc d * (single.stride k * (tens (k + 1)).2) = d * single.stride k * (tens (k + 1)).2 :=
        (Nat.mul_assoc _ _ _).symm
    _ ≤ 33554433 * gap * (tens k).2 * (tens (k + 1)).2 :=
        Nat.mul_le_mul_right _ (Nat.le_trans high (Nat.mul_le_mul_right _ digits))
    _ = 33554433 * (gap * (tens (k + 1)).2) * (tens k).2 := by ring
    _ ≤ 33554433 * single.stride (k + 1) * (tens k).2 :=
        Nat.mul_le_mul_right _ (Nat.mul_le_mul_left _ before)
    _ < 400000000 * (single.stride k * (tens (k + 1)).2) := by
        rw [Nat.mul_assoc, relation]
        omega

theorem Hit.le_high_power (hit : single.Hit (code + 1) d k) (finite : code + 1 < single.infinity) :
    k ≤ 38 := by
  apply Int.not_lt.mp
  intro high
  have positive := hit.positive
  have top : single.decimal 1 39 = single.infinity := by decide +kernel
  have powers : tenTo 39 ≤ tenTo k.natAbs := Scales.tenTo_le (by omega)
  have ordered : single.decimal 1 39 ≤ single.decimal d k := by
    apply nearest_le_nearest (by decide) (tens_pos _).2 (tens_pos _).2
    rw [tens_up (by omega : 0 ≤ k)]
    exact Nat.mul_le_mul_right _ (Nat.mul_le_mul_right _ (Nat.mul_le_mul positive powers))
  rw [top, hit.rounds] at ordered
  omega

/-- With many digits, a grid is fine enough to stay away from where rounding changes. -/
theorem Hit.clear_of_many (hit : single.Hit (code + 1) d k) (finite : code + 1 < single.infinity)
    (many : Scales.few ≤ d) :
    Scales.Far (middle code * (tens k).2) (d * single.stride k) ∧
      Scales.Far (d * single.stride k) (middle (code + 1) * (tens k).2) := by
  have under := floorOn_le (F := single) (code + 1) k
  have past := lt_floorOn_succ (F := single) (code + 1) k
  have proper := (tens_pos k).2
  have few : Scales.few = 34000000 := rfl
  have size : single.binade = 8388608 := by decide
  have precision : Scales.precision = 9007199254740992 := by decide
  have below := congrArg (· * (tens k).2) (quanta_add_gap (F := single) code)
  have above := congrArg (· * (tens k).2) (quanta_add_gap (F := single) (code + 1))
  have doubling := Nat.mul_le_mul_right (tens k).2 (gap_succ_le (F := single) code)
  have digits := Nat.mul_lt_mul_of_pos_right (quanta_lt_gap (F := single) (code + 1)) proper
  have steps : 33999999 * single.stride k ≤ single.floorOn (code + 1) k * single.stride k := by
    apply Nat.mul_le_mul_right
    rcases hit.beside with next | ⟨here, -⟩ <;> omega
  simp only [Nat.add_mul, Nat.mul_assoc, size] at below above doubling digits
  have narrow : single.stride k < single.gap (code + 1 + 1) * (tens k).2 := by
    simp only [twice, Nat.mul_assoc] at under
    omega
  have close := decimal_floorOn_succ (by decide) finite narrow
  simp only [Scales.Far, precision, middle, Nat.add_mul]
  simp only [twice, Nat.mul_assoc] at under past
  rcases hit.beside with rfl | ⟨rfl, nearer⟩
  · have next := Nat.add_one_mul (single.floorOn (code + 1) k) (single.stride k)
    omega
  · have half := nearer close
    simp only [twice, Nat.mul_assoc] at half
    omega

theorem middle_le {a b : Nat} (below : a ≤ b) : middle a ≤ middle b :=
  Nat.add_le_add (quanta_le below) (quanta_le (Nat.succ_le_succ below))

end Format

namespace Scales

open Format (single double middle)

theorem Far.mono {small small' large large' : Nat} (far : Far small large) (below : small' ≤ small)
    (above : large ≤ large') : Far small' large' := by
  have size : precision = 9007199254740992 := by decide
  rw [Far, size] at far ⊢
  omega

/-- The shortest decimal of a single comes back to it by way of doubles. -/
theorem detour_hit {code d : Nat} {k : Int} (hit : single.Hit (code + 1) d k)
    (finite : code + 1 < single.infinity) (low : -46 ≤ k) : Format.detour d k = code + 1 := by
  have high := hit.le_high_power finite
  rw [← hit.rounds]
  by_cases short : d < few
  · exact detour_few low high hit.positive short
  · obtain ⟨above, below⟩ := hit.clear_of_many finite (Nat.le_of_not_lt short)
    have faithful := faithful_ofTens (by omega : k.natAbs ≤ 308) 0
    have power : 2 * single.unit = twoTo 150 := by decide +kernel
    apply detour_eq_decimal (by omega)
    intro other _
    have scales : (ofTens k 0).a = single.stride k ∧ (ofTens k 0).b = (tens k).2 := by
      simp [ofTens, Format.stride, power, twoTo, Nat.mul_comm]
    have same : middle other = middle other * twoTo 0 := (Nat.mul_one _).symm
    apply Agrees.clear _ same
    rcases Nat.lt_or_ge code other with later | earlier
    · apply faithful.agrees_of_far_below
      rw [scales.1, scales.2]
      exact below.mono (Nat.le_refl _) (Nat.mul_le_mul_right _ (Format.middle_le later))
    · apply faithful.agrees_of_far_above
      rw [scales.1, scales.2]
      exact above.mono (Nat.mul_le_mul_right _ (Format.middle_le earlier)) (Nat.le_refl _)

end Scales
end Turtle
