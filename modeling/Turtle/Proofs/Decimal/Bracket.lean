import Mathlib.Tactic.Lift
import Mathlib.Tactic.Linarith
import Mathlib.Tactic.LinearCombination
import Mathlib.Tactic.Zify

/-! How close multiples of two numbers come to each other.
Two fractions bracket the quotient of the numbers, one on each side, and have determinant one. Below
the sum of their denominators, every other fraction is at least as far off as both together. -/
namespace Turtle

/-- The fractions `n / d`, with `d * a` in excess of `n * b`, and `n' / d'`, with `d' * a` short
of `n' * b`. -/
structure Bracket where
  d : Nat
  n : Nat
  excess : Nat
  d' : Nat
  n' : Nat
  shortage : Nat

namespace Bracket

structure Around (k : Bracket) (a b : Nat) : Prop where
  past : k.d * a = k.n * b + k.excess
  under : k.n' * b = k.d' * a + k.shortage
  unimodular : k.d * k.n' = k.n * k.d' + 1

def start (a b : Nat) : Bracket := ⟨1, 0, a, 0, 1, b⟩

/-- How often one fraction is added to the other: as often as the difference allows, but no more than
it takes to get past the limit. -/
def times (limit own other difference step : Nat) : Nat :=
  if other = 0 then difference / step
  else
    let room := (limit - own) / other + 1
    if step = 0 then room else min (difference / step) room

def narrow (limit : Nat) (k : Bracket) : Bracket :=
  if k.shortage ≤ k.excess then
    let m := times limit k.d k.d' k.excess k.shortage
    { k with d := k.d + m * k.d', n := k.n + m * k.n', excess := k.excess - m * k.shortage }
  else
    let m := times limit k.d' k.d k.shortage k.excess
    { k with d' := k.d' + m * k.d, n' := k.n' + m * k.n, shortage := k.shortage - m * k.excess }

def settle (limit : Nat) : (rounds : Nat) → Bracket → Bracket
  | 0, k => k
  | rounds + 1, k => if limit ≤ k.d + k.d' then k else settle limit rounds (k.narrow limit)

variable {k : Bracket} {a b : Nat}

theorem around_start (a b : Nat) : (start a b).Around a b := by constructor <;> simp [start]

theorem times_mul_le (limit own other difference step : Nat) :
    times limit own other difference step * step ≤ difference := by
  have most := Nat.div_mul_le_self difference step
  unfold times
  dsimp only
  split_ifs with first last
  · exact most
  · simp [last]
  · exact Nat.le_trans (Nat.mul_le_mul_right step (Nat.min_le_left _ _)) most

theorem Around.narrow (around : k.Around a b) (limit : Nat) : (k.narrow limit).Around a b := by
  obtain ⟨past, under, unimodular⟩ := around
  unfold Bracket.narrow
  dsimp only
  split_ifs
  · have fits := times_mul_le limit k.d k.d' k.excess k.shortage
    generalize times limit k.d k.d' k.excess k.shortage = m at fits
    refine ⟨?_, under, by linear_combination unimodular⟩
    dsimp only
    zify [fits] at past under ⊢
    linear_combination past - m * under
  · have fits := times_mul_le limit k.d' k.d k.shortage k.excess
    generalize times limit k.d' k.d k.shortage k.excess = m at fits
    refine ⟨past, ?_, by linear_combination unimodular⟩
    dsimp only
    zify [fits] at past under ⊢
    linear_combination under - m * past

theorem Around.settle (around : k.Around a b) (limit rounds : Nat) :
    (k.settle limit rounds).Around a b := by
  induction rounds generalizing k with
  | zero => exact around
  | succ rounds ih =>
    unfold Bracket.settle
    split_ifs
    · exact around
    · exact ih (around.narrow limit)

/-- A fraction with a small denominator is one of the two, or further off than both. -/
theorem Around.apart (around : k.Around a b) {x y : Nat} (positive : 0 < x) (small : x < k.d + k.d') :
    (∃ m, x = m * k.d ∧ y = m * k.n) ∨ (∃ m, x = m * k.d' ∧ y = m * k.n') ∨
      y * b + (k.excess + k.shortage) ≤ x * a ∨ x * a + (k.excess + k.shortage) ≤ y * b := by
  obtain ⟨past, under, unimodular⟩ := around
  zify at past under unimodular positive small
  -- the coordinates of the fraction in the basis of the two
  obtain ⟨s, hs⟩ : ∃ s : Int, s = x * k.n' - y * k.d' := ⟨_, rfl⟩
  obtain ⟨t, ht⟩ : ∃ t : Int, t = y * k.d - x * k.n := ⟨_, rfl⟩
  have first : (x : Int) = s * k.d + t * k.d' := by
    rw [hs, ht]
    linear_combination (-(x : Int)) * unimodular
  have second : (y : Int) = s * k.n + t * k.n' := by
    rw [hs, ht]
    linear_combination (-(y : Int)) * unimodular
  have gap : (x : Int) * a - y * b = s * k.excess - t * k.shortage := by
    rw [first, second]
    linear_combination s * past - t * under
  have more {c : Int} (positive : 0 < c) (n : Nat) : (n : Int) ≤ c * n :=
    le_mul_of_one_le_left (Int.natCast_nonneg n) positive
  have none {c : Int} (negative : c ≤ 0) (n : Nat) : c * n ≤ 0 :=
    mul_nonpos_of_nonpos_of_nonneg negative (Int.natCast_nonneg n)
  rcases lt_trichotomy t 0 with down | level | up
  · rcases lt_or_ge 0 s with right | left
    · right; right; left
      zify
      linarith [more right k.excess, more (Int.neg_pos.mpr down) k.shortage]
    · linarith [none left k.d, none down.le k.d']
  · left
    have right : 0 ≤ s := by
      by_contra left
      rw [level, zero_mul, add_zero] at first
      linarith [none (le_of_not_ge left) k.d]
    lift s to Nat using right
    simp only [level, zero_mul, add_zero] at first second
    exact ⟨s, by exact_mod_cast first, by exact_mod_cast second⟩
  · rcases lt_trichotomy s 0 with left | level | right
    · right; right; right
      zify
      linarith [more (Int.neg_pos.mpr left) k.excess, more up k.shortage]
    · right; left
      lift t to Nat using le_of_lt up
      simp only [level, zero_mul, zero_add] at first second
      exact ⟨t, by exact_mod_cast first, by exact_mod_cast second⟩
    · linarith [more right k.d, more up k.d']

end Bracket
end Turtle
