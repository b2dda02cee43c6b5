import Turtle.Number.Format

/-! The scale of a format, code by code.
Quanta grow with the codes, and so do the gaps between neighbours: a gap doubles where a binade
begins and is the same throughout a binade. -/
namespace Turtle

theorem shiftLeft_eq_mul (n shift : Nat) : n <<< shift = n * twoTo shift := by
  rw [twoTo_eq_pow]
  exact Nat.shiftLeft_eq n shift

theorem twoTo_le {m n : Nat} (below : m ≤ n) : twoTo m ≤ twoTo n := by
  rw [twoTo_eq_pow, twoTo_eq_pow]
  exact Nat.pow_le_pow_right (by decide) below

namespace Format

variable {F : Format} {a b code : Nat}

/-- The gap below a code: the distance in quanta from the next smaller magnitude. -/
def gap (F : Format) (code : Nat) : Nat := F.quanta code - F.quanta (code - 1)

/-- Two binades at a time the scale is a straight line: the steps of the upper one begin at its
foot, and in the lowest two every step is one quantum. -/
theorem quanta_mul_add (shift place : Nat) (low : shift = 0 ∨ F.binade ≤ place)
    (high : place ≤ 2 * F.binade) :
    F.quanta (shift * F.binade + place) = place * twoTo shift := by
  have positive := F.binade_pos
  by_cases below : place < F.binade
  · have lowest : shift = 0 := low.resolve_right (Nat.not_le_of_lt below)
    rw [lowest, Nat.zero_mul, Nat.zero_add, quanta, if_pos below]
    exact (Nat.mul_one place).symm
  · have inside : F.binade ≤ place := Nat.le_of_not_lt below
    have later : ¬ shift * F.binade + place < F.binade := by omega
    rw [quanta, if_neg later, shiftLeft_eq_mul]
    rcases Nat.lt_or_eq_of_le high with under | top
    · have sum : shift * F.binade + place = (place - F.binade) + F.binade * (shift + 1) := by
        rw [Nat.mul_succ, Nat.mul_comm F.binade shift]
        omega
      rw [sum, Nat.add_mul_mod_self_left, Nat.add_mul_div_left _ _ positive,
        Nat.mod_eq_of_lt (by omega), Nat.div_eq_of_lt (by omega), Nat.zero_add,
        Nat.add_sub_cancel, Nat.add_sub_cancel' inside]
    · have sum : shift * F.binade + place = F.binade * (shift + 1 + 1) := by
        rw [top, Nat.mul_succ, Nat.mul_succ, Nat.mul_comm F.binade shift]
        omega
      rw [sum, Nat.mul_mod_right, Nat.mul_div_cancel_left _ positive, Nat.add_zero,
        Nat.add_sub_cancel, twoTo_succ, top, ← Nat.mul_assoc, Nat.mul_comm F.binade 2]

theorem quanta_succ (code : Nat) :
    F.quanta (code + 1) = F.quanta code + twoTo (code / F.binade - 1) := by
  have positive := F.binade_pos
  have split := Nat.div_add_mod code F.binade
  have within := Nat.mod_lt code positive
  cases binade : code / F.binade with
  | zero =>
    have small : code < F.binade := (Nat.div_eq_zero_iff_lt positive).mp binade
    have here := quanta_mul_add (F := F) 0 code (.inl rfl) (by omega)
    have next := quanta_mul_add (F := F) 0 (code + 1) (.inl rfl) (by omega)
    rw [Nat.zero_mul, Nat.zero_add] at here next
    rw [here, next, Nat.add_mul, Nat.one_mul]
  | succ shift =>
    have place : code = shift * F.binade + (F.binade + code % F.binade) := by
      rw [binade, Nat.mul_succ, Nat.mul_comm] at split
      omega
    have here := quanta_mul_add (F := F) shift (F.binade + code % F.binade)
      (.inr (by omega)) (by omega)
    have next := quanta_mul_add (F := F) shift (F.binade + code % F.binade + 1)
      (.inr (by omega)) (by omega)
    rw [← place] at here
    rw [← Nat.add_assoc, ← place] at next
    rw [here, next, Nat.add_mul _ 1, Nat.one_mul, Nat.add_sub_cancel]

@[simp] theorem quanta_zero : F.quanta 0 = 0 := if_pos F.binade_pos

theorem quanta_lt (below : a < b) : F.quanta a < F.quanta b := by
  induction below with
  | refl =>
    rw [quanta_succ]
    exact Nat.lt_add_of_pos_right (twoTo_pos _)
  | step _ ih =>
    rw [quanta_succ]
    exact Nat.lt_add_right _ ih

theorem quanta_pos (proper : 0 < a) : 0 < F.quanta a := by
  simpa using quanta_lt proper

theorem quanta_le (below : a ≤ b) : F.quanta a ≤ F.quanta b := by
  rcases Nat.lt_or_eq_of_le below with less | rfl
  · exact Nat.le_of_lt (quanta_lt less)
  · exact Nat.le_refl _

theorem lt_of_quanta_lt (below : F.quanta a < F.quanta b) : a < b := by
  apply Nat.lt_of_not_le
  intro above
  exact Nat.not_le_of_lt below (quanta_le above)

@[simp] theorem gap_zero : F.gap 0 = 0 := Nat.sub_self _

theorem gap_succ (code : Nat) : F.gap (code + 1) = twoTo (code / F.binade - 1) := by
  rw [gap, Nat.add_sub_cancel, quanta_succ, Nat.add_sub_cancel_left]

theorem quanta_add_gap (code : Nat) :
    F.quanta code + F.gap (code + 1) = F.quanta (code + 1) := by
  rw [gap_succ, quanta_succ]

theorem gap_le (below : a ≤ b) : F.gap a ≤ F.gap b := by
  cases a with
  | zero =>
    rw [gap_zero]
    exact Nat.zero_le _
  | succ a =>
    cases b with
    | zero => cases below
    | succ b =>
      rw [gap_succ, gap_succ]
      have behind : a / F.binade ≤ b / F.binade :=
        Nat.div_le_div_right (Nat.le_of_succ_le_succ below)
      exact twoTo_le (Nat.sub_le_sub_right behind 1)

end Format
end Turtle
