import Turtle.Proofs.Number.Nearest
import Mathlib.Logic.Function.Iterate

/-! Counting down in a format: a stride is taken from a number again and again, and every
difference is rounded.
A stride of less than half the gap below a number is lost in rounding, and then the countdown has
no end. The gaps only narrow on the way down, so a countdown that leaves the number at which it
begins can at worst be held up once more, right below it. -/
namespace Turtle.Format

variable {F : Format} {stride code : Nat}

/-- What is left of a number when a stride is taken from it, as codes. -/
def left (F : Format) (stride code : Nat) : Nat :=
  if F.quanta code ≤ F.quanta stride then 0
  else F.nearest (F.quanta code - F.quanta stride) 1

/-- Whether a countdown has an end. A stride of just half the gap gets past a number only where the
gaps are narrower below it. -/
def CountsDown (F : Format) (stride code : Nat) : Prop :=
  code = 0 ∨ F.gap code < 2 * F.quanta stride ∨
    F.gap code = 2 * F.quanta stride ∧ F.gap (code - 1) < F.gap code

instance : Decidable (F.CountsDown stride code) :=
  inferInstanceAs (Decidable (_ ∨ _ ∨ _ ∧ _))

@[simp] theorem left_zero : F.left stride 0 = 0 := by
  rw [left, quanta_zero, if_pos (Nat.zero_le _)]

theorem left_le (fine : 0 < F.fractionBits) (finite : code < F.infinity) :
    F.left stride code ≤ code := by
  unfold left
  split
  · exact Nat.zero_le code
  · have next : F.quanta code < F.quanta (code + 1) := quanta_lt (Nat.lt_succ_self code)
    apply Nat.le_of_not_lt
    intro above
    rw [lt_nearest_iff fine Nat.one_pos finite] at above
    omega

/-- The stride is not lost if it is more than half the gap, or half of it where a tie is rounded
down. -/
theorem left_lt_iff (fine : 0 < F.fractionBits) (finite : code + 1 < F.infinity) :
    F.left stride (code + 1) < code + 1 ↔
      F.gap (code + 1) < 2 * F.quanta stride ∨
        F.gap (code + 1) = 2 * F.quanta stride ∧ code % 2 = 0 := by
  have climb := quanta_add_gap (F := F) code
  have wide : 0 < F.gap (code + 1) := gap_succ (F := F) code ▸ twoTo_pos _
  unfold left
  split
  · exact iff_of_true (Nat.succ_pos code) (by omega)
  · rw [← Nat.not_le, Nat.succ_le_iff, lt_nearest_iff fine Nat.one_pos (by omega)]
    omega

theorem left_of_tie (fine : 0 < F.fractionBits) (finite : code + 1 < F.infinity)
    (half : F.gap (code + 1) = 2 * F.quanta stride) (even : code % 2 = 0) :
    F.left stride (code + 1) = code := by
  have under : F.left stride (code + 1) < code + 1 :=
    (left_lt_iff fine finite).mpr (.inr ⟨half, even⟩)
  refine Nat.le_antisymm (Nat.le_of_lt_succ under) ?_
  cases code with
  | zero => exact Nat.zero_le _
  | succ code =>
    have climb := quanta_add_gap (F := F) (code + 1)
    have below : F.quanta code < F.quanta (code + 1) := quanta_lt (Nat.lt_succ_self code)
    unfold left
    rw [if_neg (by omega), Nat.succ_le_iff, lt_nearest_iff fine Nat.one_pos (by omega)]
    omega

/-- Gaps change only at even codes, where binades begin. -/
theorem even_of_gap_lt (fine : 0 < F.fractionBits) (narrower : F.gap code < F.gap (code + 1)) :
    code % 2 = 0 := by
  cases code with
  | zero => rfl
  | succ code =>
    rw [gap_succ, gap_succ] at narrower
    by_cases foot : F.binade ∣ code + 1
    · exact Nat.mod_eq_zero_of_dvd (Nat.dvd_trans (Nat.dvd_of_mod_eq_zero (binade_even fine)) foot)
    · rw [Nat.succ_div_of_not_dvd foot] at narrower
      exact absurd narrower (Nat.lt_irrefl _)

theorem left_reaches_zero (fine : 0 < F.fractionBits) (finite : code < F.infinity)
    (long : F.gap code < 2 * F.quanta stride) : ∃ n, (F.left stride)^[n] code = 0 := by
  induction code using Nat.strongRecOn with
  | ind code ih =>
    cases code with
    | zero => exact ⟨0, rfl⟩
    | succ code =>
      have less : F.left stride (code + 1) < code + 1 := (left_lt_iff fine finite).mpr (.inl long)
      have narrower := gap_le (F := F) (Nat.le_of_lt less)
      obtain ⟨n, ends⟩ := ih _ less (Nat.lt_trans less finite) (Nat.lt_of_le_of_lt narrower long)
      exact ⟨n + 1, ends⟩

theorem left_iterate_of_not_lt (fine : 0 < F.fractionBits) (finite : code < F.infinity)
    (lost : ¬ F.left stride code < code) (n : Nat) : (F.left stride)^[n] code = code :=
  Function.iterate_fixed (Nat.le_antisymm (left_le fine finite) (Nat.le_of_not_lt lost)) n

/-- A countdown held up right below a tie stays there. -/
theorem left_iterate_of_tie (fine : 0 < F.fractionBits) (finite : code + 1 < F.infinity)
    (half : F.gap (code + 1) = 2 * F.quanta stride) (even : code % 2 = 0)
    (level : F.gap (code + 1) ≤ F.gap code) (n : Nat) :
    (F.left stride)^[n + 1] (code + 1) = code := by
  have same : F.gap code = 2 * F.quanta stride :=
    half ▸ Nat.le_antisymm (gap_le (Nat.le_succ code)) level
  have lost : ¬ F.left stride code < code := by
    cases code with
    | zero => exact Nat.not_lt_zero _
    | succ code =>
      rw [left_lt_iff fine (Nat.lt_of_succ_lt finite)]
      omega
  rw [Function.iterate_succ_apply, left_of_tie fine finite half even]
  exact left_iterate_of_not_lt fine (Nat.lt_of_succ_lt finite) lost n

theorem left_reaches_zero_iff (fine : 0 < F.fractionBits) (finite : code < F.infinity) :
    (∃ n, (F.left stride)^[n] code = 0) ↔ F.CountsDown stride code := by
  cases code with
  | zero => exact iff_of_true ⟨0, rfl⟩ (.inl rfl)
  | succ code =>
    constructor
    · rintro ⟨n, ends⟩
      by_cases less : F.left stride (code + 1) < code + 1
      · rcases (left_lt_iff fine finite).mp less with long | ⟨half, even⟩
        · exact .inr (.inl long)
        · refine .inr (.inr ⟨half, Nat.lt_of_not_le fun level => ?_⟩)
          have positive : 0 < F.gap (code + 1) := gap_succ (F := F) code ▸ twoTo_pos _
          cases n with
          | zero => cases ends
          | succ n =>
            rw [left_iterate_of_tie fine finite half even level] at ends
            subst ends
            rw [Nat.add_sub_cancel, gap_zero] at level
            exact absurd positive (Nat.not_lt_of_le level)
      · rw [left_iterate_of_not_lt fine finite less] at ends
        cases ends
    · rintro (impossible | long | ⟨half, narrower⟩)
      · cases impossible
      · exact left_reaches_zero fine finite long
      · have even := even_of_gap_lt fine narrower
        have next := left_of_tie fine finite half even
        obtain ⟨n, ends⟩ := left_reaches_zero fine (Nat.lt_of_succ_lt finite) (half ▸ narrower)
        refine ⟨n + 1, ?_⟩
        rw [Function.iterate_succ_apply, next]
        exact ends

end Turtle.Format
