import Turtle.Proofs.Number.Countdown
import Turtle.Proofs.Number.Twice
import Mathlib.Data.Nat.Find

/-! How fast a countdown goes.
Where the gaps are no wider than the stride, a rounded difference is off by half a stride at most. So
every stride takes at least half of its length and at most three halves, down to zero. -/
namespace Turtle.Format

variable {F : Format} {stride code num : Nat}

/-- Up to as many strides as a binade has codes, the gaps are no wider than a stride. -/
theorem gap_le_stride (proper : 0 < F.quanta stride)
    (near : F.quanta code ≤ F.binade * F.quanta stride) : F.gap code ≤ F.quanta stride := by
  cases code with
  | zero =>
    rw [gap_zero]
    exact Nat.zero_le _
  | succ code =>
    rcases Nat.lt_or_ge code F.binade with low | normal
    · rw [gap_succ, Nat.div_eq_of_lt low]
      exact proper
    · have narrow : F.gap (code + 1) * F.binade ≤ F.quanta stride * F.binade :=
        calc F.gap (code + 1) * F.binade ≤ F.quanta code := gap_mul_binade_le normal
          _ ≤ F.quanta (code + 1) := quanta_le (Nat.le_succ code)
          _ ≤ F.binade * F.quanta stride := near
          _ = F.quanta stride * F.binade := Nat.mul_comm _ _
      exact Nat.le_of_mul_le_mul_right narrow F.binade_pos

/-- Below a number, rounding is off by half the gap there at most. -/
theorem nearest_within_gap (fine : 0 < F.fractionBits) (finite : code < F.infinity)
    (below : num ≤ F.quanta code) :
    2 * F.quanta (F.nearest num 1) ≤ 2 * num + F.gap code ∧
      2 * num ≤ 2 * F.quanta (F.nearest num 1) + F.gap code := by
  have under : F.nearest num 1 ≤ code := by
    have kept := nearest_quanta_one (F := F) fine (Nat.le_of_lt finite)
    exact kept ▸ nearest_le_nearest fine Nat.one_pos Nat.one_pos (Nat.mul_le_mul_right 1 below)
  generalize same : F.nearest num 1 = found at under ⊢
  constructor
  · cases found with
    | zero => simp
    | succ found =>
      have passed : found < F.nearest num 1 := same ▸ Nat.lt_succ_self found
      rw [lt_nearest_iff fine Nat.one_pos (by omega)] at passed
      have climb := quanta_add_gap (F := F) found
      have narrow := gap_le (F := F) under
      omega
  · rcases Nat.lt_or_eq_of_le under with less | rfl
    · have reached : ¬ found < F.nearest num 1 := same ▸ Nat.lt_irrefl found
      rw [lt_nearest_iff fine Nat.one_pos (Nat.lt_trans less finite)] at reached
      have climb := quanta_add_gap (F := F) found
      have narrow : F.gap (found + 1) ≤ F.gap code := gap_le less
      omega
    · omega

/-- One stride takes between half of its length and three halves, unless it is the last. -/
theorem left_bounds (fine : 0 < F.fractionBits) (finite : code < F.infinity)
    (narrow : F.gap code ≤ F.quanta stride) :
    2 * F.quanta code ≤ 2 * F.quanta (F.left stride code) + 3 * F.quanta stride ∧
      (F.left stride code ≠ 0 →
        2 * F.quanta (F.left stride code) + F.quanta stride ≤ 2 * F.quanta code) := by
  unfold left
  split
  · refine ⟨?_, fun none => absurd rfl none⟩
    rw [quanta_zero]
    omega
  · obtain ⟨above, below⟩ := nearest_within_gap fine finite (Nat.sub_le _ (F.quanta stride))
    refine ⟨by omega, fun _ => by omega⟩

/-- What some strides leave, with bounds on what they took. -/
theorem left_iterate_bounds (fine : 0 < F.fractionBits) (finite : code < F.infinity)
    (proper : 0 < F.quanta stride) (near : F.quanta code ≤ F.binade * F.quanta stride) (n : Nat) :
    let rest := (F.left stride)^[n] code
    rest ≤ code ∧ 2 * F.quanta code ≤ 2 * F.quanta rest + 3 * F.quanta stride * n ∧
      (rest ≠ 0 → 2 * F.quanta rest + F.quanta stride * n ≤ 2 * F.quanta code) := by
  induction n with
  | zero => simp
  | succ n ih =>
    rw [Function.iterate_succ_apply']
    obtain ⟨under, most, least⟩ := ih
    -- What is left only shrinks, so the gaps stay as narrow as they were at first.
    generalize (F.left stride)^[n] code = rest at under most least ⊢
    have small := Nat.lt_of_le_of_lt under finite
    have narrow := gap_le_stride proper (Nat.le_trans (quanta_le under) near)
    obtain ⟨more, less⟩ := left_bounds fine small narrow
    refine ⟨Nat.le_trans (left_le fine small) under, ?_, ?_⟩
    · rw [Nat.mul_succ]
      omega
    · intro going
      have before : rest ≠ 0 := by
        rintro rfl
        exact going left_zero
      have taken := least before
      have step := less going
      rw [Nat.mul_succ]
      omega

/-- A countdown from near enough ends after a number of strides that its length bounds from both
sides. -/
theorem exists_first_zero (fine : 0 < F.fractionBits) (finite : code < F.infinity)
    (proper : 0 < F.quanta stride) (near : F.quanta code ≤ F.binade * F.quanta stride) :
    ∃ n, (∀ k, (F.left stride)^[k] code = 0 ↔ n ≤ k) ∧
      2 * F.quanta code ≤ 3 * F.quanta stride * n ∧
      F.quanta stride * n ≤ 2 * F.quanta code + F.quanta stride := by
  have narrow := gap_le_stride proper near
  have ends := left_reaches_zero fine finite (show F.gap code < 2 * F.quanta stride by omega)
  have bounds := left_iterate_bounds fine finite proper near
  refine ⟨Nat.find ends, ?_, ?_, ?_⟩
  · intro k
    refine ⟨Nat.find_min' ends, fun later => ?_⟩
    obtain ⟨more, rfl⟩ := Nat.exists_eq_add_of_le later
    rw [Nat.add_comm, Function.iterate_add_apply, Nat.find_spec ends]
    exact Function.iterate_fixed left_zero more
  · have most := (bounds (Nat.find ends)).2.1
    rw [Nat.find_spec ends, quanta_zero] at most
    simpa using most
  · have before := fun m => Nat.find_min ends (m := m)
    generalize Nat.find ends = n at before ⊢
    cases n with
    | zero => simp
    | succ n =>
      have least := (bounds n).2.2 (before n (Nat.lt_succ_self n))
      rw [Nat.mul_succ]
      omega

end Turtle.Format
