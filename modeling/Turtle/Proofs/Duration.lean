import Turtle.Proofs.Mirror
import Turtle.Proofs.Number.Descent
import Turtle.Proofs.Strides

/-! How long a journey takes whose strides are all alike.
What is left never grows, and the last stride passes the end by no more than its own length. Of a
distance of up to `2 ^ 23` strides, each takes between half of its length and three halves, which bounds
the number of steps from both sides, wherever the journey starts and however it is turned and pushed. -/
namespace Turtle

namespace Number

variable {F : Format} {x y : Number F} {a b : Nat}

theorem signed_le_signed_iff {s t : Bool} {ha : a ≤ F.infinity} {hb : b ≤ F.infinity} :
    (signed s a ha : Number F) ≤ signed t b hb ↔ rank s a ≤ rank t b :=
  decide_eq_true_iff

theorem le_self_of_le (below : x ≤ y) : x ≤ x := by
  cases x with
  | nan => cases below
  | signed s a ha => exact signed_le_signed_iff.mpr (Int.le_refl _)

theorem le_of_le_zero (below : x ≤ 0) {ha : a ≤ F.infinity} : x ≤ signed false a ha := by
  cases x with
  | nan => cases below
  | signed s b hb =>
    rw [signed_le_zero_iff] at below
    rw [signed_le_signed_iff]
    rcases below with rfl | rfl
    · simp only [rank, if_true, Bool.false_eq_true, if_false]
      omega
    · cases s <;> simp [rank]

theorem neg_le_ofQuanta (fine : 0 < F.fractionBits) {hb : b ≤ F.infinity} {n : Int}
    (above : -(F.quanta b : Int) ≤ n) : -(signed false b hb : Number F) ≤ ofQuanta false n := by
  change signed true b hb ≤ nearest _ _ 1
  unfold nearest
  rw [signed_le_signed_iff]
  by_cases less : n < 0
  · have under : n.natAbs * 1 ≤ F.quanta b * 1 := by omega
    have rounded := Format.nearest_le_nearest fine Nat.one_pos Nat.one_pos under
    rw [Format.nearest_quanta_one fine hb] at rounded
    simp only [if_neg (Int.ne_of_lt less), less, decide_true, rank, if_true]
    omega
  · simp only [less, decide_false, ite_self, rank, if_true, Bool.false_eq_true, if_false]
    omega

theorem exists_code_of_pos (finite : x.isFinite = true) (positive : 0 < x) :
    ∃ code bounded, x = signed false code bounded ∧ code < F.infinity ∧ 0 < F.quanta code := by
  cases x with
  | nan => cases finite
  | signed s a ha =>
    rw [pos_iff_not_le_zero finite, signed_le_zero_iff, not_or, Bool.not_eq_true] at positive
    obtain ⟨rfl, proper⟩ := positive
    exact ⟨a, ha, rfl, of_decide_eq_true finite, Format.quanta_pos (Nat.pos_of_ne_zero proper)⟩

/-- A difference is no further below zero than what is taken. -/
theorem neg_le_sub (fine : 0 < F.fractionBits) {ha : a ≤ F.infinity} {hb : b ≤ F.infinity}
    (first : a < F.infinity) (second : b < F.infinity) :
    -(signed false b hb) ≤ (signed false a ha - signed false b hb : Number F) := by
  have difference : (signed false a ha - signed false b hb : Number F)
      = ofQuanta false ((signed false a ha).quanta + (signed true b hb).quanta) :=
    add_of_finite first second
  rw [difference]
  apply neg_le_ofQuanta fine
  simp only [quanta, Bool.false_eq_true, if_false, if_true]
  omega

theorem natAbs_quanta (x : Number F) (finite : x.isFinite = true) :
    x.quanta.natAbs = F.quanta x.code := by
  cases x with
  | nan => cases finite
  | signed s a ha => exact natAbs_quanta_signed

end Number

namespace Journey

variable {j : Journey} {speed dt : Single} {code stride : Nat}

theorem status_eq_complete_iff (j : Journey) : j.status = .complete ↔ j.isOver = true := by
  unfold status
  split <;> simp_all

theorem travel_append (j : Journey) (pose : Pose) (legs more : List Leg) :
    j.travel pose (legs ++ more) =
      (j.travel pose legs).1.travel (j.travel pose legs).2 more := by
  induction legs generalizing j pose with
  | nil => rfl
  | cons leg legs ih => exact ih _ _

/-- How a journey stands, by the code of what is left: if nothing is, it is over, by no more than a
stride. -/
def Stands (j : Journey) (speed dt : Single) (code : Nat) : Prop :=
  if code = 0 then -(speed * dt) ≤ j.remaining ∧ j.remaining ≤ 0 else j.Ahead speed code

theorem Stands.status_iff (stands : j.Stands speed dt code) : j.status = .complete ↔ code = 0 := by
  rw [status_eq_complete_iff]
  unfold Stands at stands
  split at stands
  · rename_i none
    exact iff_of_true (decide_eq_true stands.2) none
  · exact stands.isOver_iff

/-- A step with nothing left does nothing. -/
theorem Stands.step_of_zero (stands : j.Stands speed dt 0) (pose : Pose) :
    j.step pose dt = (j, pose) ∧ (j.step pose dt).1.status = .complete := by
  have finished : j.isOver = true := (status_eq_complete_iff j).mp (stands.status_iff.mpr rfl)
  rw [step_of_isOver finished]
  exact ⟨rfl, status_of_isOver finished⟩

theorem stands_ofDistance {distance : Single} (finite : distance.isFinite = true) {bounded}
    (strides : speed * dt = .signed false stride bounded) :
    (ofDistance distance speed).Stands speed dt distance.code := by
  have short := Number.code_lt_infinity finite
  have rest : (ofDistance distance speed).remaining
      = .signed false distance.code (Nat.le_of_lt short) := by
    cases distance with
    | nan => cases finite
    | signed s a ha => rfl
  unfold Stands
  split
  · rename_i none
    rw [rest, strides]
    refine ⟨?_, Number.signed_le_zero_iff.mpr (.inr none)⟩
    exact Number.signed_le_signed_iff.mpr (by simp [Number.rank])
  · exact ⟨short, rest, rfl⟩

/-- One step takes one stride. -/
theorem Stands.shorten (stands : j.Stands speed dt code) {bounded}
    (strides : speed * dt = .signed false stride bounded) (short : stride < Format.single.infinity) :
    (j.shorten dt).Stands speed dt (Format.single.left stride code) ∧
      (j.shorten dt).remaining ≤ j.remaining := by
  by_cases none : code = 0
  · have finished : j.isOver = true := (status_eq_complete_iff j).mp (stands.status_iff.mpr none)
    have same : j.shorten dt = j := if_pos finished
    rw [same, none, Format.left_zero, ← none]
    exact ⟨stands, Number.le_self_of_le (of_decide_eq_true finished)⟩
  · have ahead : j.Ahead speed code := by rwa [Stands, if_neg none] at stands
    by_cases last : Format.single.left stride code = 0
    · have going : ¬ j.isOver = true := fun finished => none (ahead.isOver_iff.mp finished)
      have rest : (j.shorten dt).remaining = j.remaining - speed * dt := by
        rw [Journey.shorten, if_neg going, ahead.speed_eq]
      have ends := ahead.step_of_nothing_left strides last .origin
      rw [step_fst, status_eq_complete_iff] at ends
      have under : (j.shorten dt).remaining ≤ 0 := of_decide_eq_true ends
      rw [Stands, if_pos last]
      refine ⟨⟨?_, under⟩, ahead.remaining ▸ Number.le_of_le_zero under⟩
      rw [rest, strides, ahead.remaining]
      exact Number.neg_le_sub (by decide) ahead.finite short
    · obtain ⟨_, after⟩ := ahead.step_of_left strides last .origin
      rw [step_fst] at after
      refine ⟨?_, ?_⟩
      · rwa [Stands, if_neg last]
      · rw [after.remaining, ahead.remaining, Number.signed_le_signed_iff]
        exact Int.ofNat_le.mpr (Format.left_le (by decide) ahead.finite)

end Journey

/-- All steps are of one length of time. -/
def Leg.Paced (dt : Single) (legs : List Leg) : Prop := ∀ leg ∈ legs, leg.dt = dt

namespace Journey

variable {j : Journey} {speed dt : Single} {code stride : Nat}

theorem Stands.travel (stands : j.Stands speed dt code) {bounded}
    (strides : speed * dt = .signed false stride bounded) (short : stride < Format.single.infinity)
    {legs : List Leg} (paced : Leg.Paced dt legs) (pose : Pose) :
    (j.travel pose legs).1.Stands speed dt ((Format.single.left stride)^[legs.length] code) := by
  induction legs generalizing j pose code with
  | nil => exact stands
  | cons leg legs ih =>
    have next : (j.step (leg.prepare pose) leg.dt).1.Stands speed dt
        (Format.single.left stride code) := by
      rw [step_fst, paced leg List.mem_cons_self]
      exact (stands.shorten strides short).1
    exact ih next (fun later member => paced later (List.mem_cons_of_mem leg member)) _

theorem remaining_travel_le (stands : j.Stands speed dt code) {bounded}
    (strides : speed * dt = .signed false stride bounded) (short : stride < Format.single.infinity)
    {legs : List Leg} {leg : Leg} (paced : Leg.Paced dt (legs ++ [leg])) (pose : Pose) :
    (j.travel pose (legs ++ [leg])).1.remaining ≤ (j.travel pose legs).1.remaining := by
  have before : Leg.Paced dt legs := fun other member =>
    paced other (List.mem_append_left _ member)
  have pace : leg.dt = dt := paced leg (List.mem_append_right _ List.mem_cons_self)
  have last := ((stands.travel strides short before pose).shorten strides short).2
  rw [travel_append, travel_fst _ _ [leg]]
  rw [← pace] at last
  exact last

/-- A journey of a finite distance by steps of one positive stride. What remains never grows, and when
the journey completes it is no further below zero than a stride. If the distance is at most `2 ^ 23`
strides, the journey completes, always with the same step, and the number of that step is at least
`2 / 3` of the distance in strides and at most twice the distance in strides and one. Lengths are in
quanta, so nothing in the bounds is rounded. A journey of no distance completes with the first step and
stays where it is. -/
theorem travel_completes_within {distance : Single} (finite : distance.isFinite = true)
    (stridden : (speed * dt).isFinite = true) (positive : 0 < speed * dt) :
    let journey := ofDistance distance speed
    let length := distance.quanta.natAbs
    let stride := (speed * dt).quanta.natAbs
    (∀ start legs leg, Leg.Paced dt (legs ++ [leg]) →
      (journey.travel start (legs ++ [leg])).1.remaining ≤ (journey.travel start legs).1.remaining) ∧
    (∀ start legs, Leg.Paced dt legs → (journey.travel start legs).1.status = .complete →
      -(speed * dt) ≤ (journey.travel start legs).1.remaining ∧
        (journey.travel start legs).1.remaining ≤ 0) ∧
    (length ≤ 2 ^ 23 * stride → ∃ n,
      (∀ start legs, Leg.Paced dt legs →
        ((journey.travel start legs).1.status = .complete ↔ n ≤ legs.length)) ∧
      2 * length ≤ 3 * stride * n ∧ stride * n ≤ 2 * length + stride) ∧
    (length = 0 → ∀ start, journey.step start dt = (journey, start) ∧
      (journey.step start dt).1.status = .complete) := by
  intro journey length stride
  obtain ⟨code, bounded, strides, short, proper⟩ := Number.exists_code_of_pos stridden positive
  have stands : journey.Stands speed dt distance.code := stands_ofDistance finite strides
  have small := Number.code_lt_infinity finite
  have far : length = Format.single.quanta distance.code := Number.natAbs_quanta distance finite
  have wide : stride = Format.single.quanta code := by
    change (speed * dt).quanta.natAbs = _
    rw [Number.natAbs_quanta _ stridden, strides]
    rfl
  refine ⟨?_, ?_, ?_, ?_⟩
  · intro start legs leg paced
    exact remaining_travel_le stands strides short paced start
  · intro start legs paced ended
    have after := stands.travel strides short paced start
    have none := after.status_iff.mp ended
    rwa [Stands, if_pos none] at after
  · intro near
    rw [far, wide] at near ⊢
    obtain ⟨n, ends, most, least⟩ :=
      Format.exists_first_zero (by decide) small proper near
    refine ⟨n, ?_, most, least⟩
    intro start legs paced
    rw [(stands.travel strides short paced start).status_iff]
    exact ends legs.length
  · intro none start
    have origin : distance.code = 0 := by
      apply Nat.eq_zero_of_not_pos
      intro more
      exact Nat.ne_of_gt (Format.quanta_pos more) (far.symm.trans none)
    rw [origin] at stands
    exact stands.step_of_zero start

/-- One unit at two units per second and ten steps per second: five tenths of a second are not quite
enough, as the strides are rounded. -/
theorem one_unit_in_six_steps :
    let distance : Single := 1
    let speed : Single := 2
    let dt : Single := .ofRatio false 1 10
    distance.isFinite = true ∧ (speed * dt).isFinite = true ∧ 0 < speed * dt ∧
      distance.quanta.natAbs ≤ 2 ^ 23 * (speed * dt).quanta.natAbs ∧
      ∀ start legs, Leg.Paced dt legs →
        (((ofDistance distance speed).travel start legs).1.status = .complete ↔ 6 ≤ legs.length) := by
  intro distance speed dt
  have finite : distance.isFinite = true := by decide +kernel
  have stridden : (speed * dt).isFinite = true := by decide +kernel
  have positive : 0 < speed * dt := by decide +kernel
  have near : distance.quanta.natAbs ≤ 2 ^ 23 * (speed * dt).quanta.natAbs := by decide +kernel
  obtain ⟨_, _, completes, _⟩ := travel_completes_within finite stridden positive
  obtain ⟨n, ends, _⟩ := completes near
  have paced (k : Nat) : Leg.Paced dt (.replicate k ⟨none, none, dt⟩) := by
    intro leg member
    rw [List.eq_of_mem_replicate member]
  have early := ends .origin _ (paced 5)
  have late := ends .origin _ (paced 6)
  rw [List.length_replicate] at early late
  have above : ¬ n ≤ 5 := early.not.mp (by decide +kernel)
  have below : n ≤ 6 := late.mp (by decide +kernel)
  obtain rfl : n = 6 := by omega
  exact ⟨finite, stridden, positive, near, ends⟩

end Journey
end Turtle
