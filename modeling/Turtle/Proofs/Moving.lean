import Mathlib.Data.List.Induction
import Turtle.Proofs.Duration
import Turtle.Proofs.Grammar
import Turtle.Proofs.Tenancy

/-! When an actor is moving.
Of all that was done to an actor, only what follows its newest departure counts: whether it is still
moving, and how its steps end. A departure for a distance that is not finite has no end, as nothing that
is taken from infinity, or from what is not a number, leaves a number of at most zero. -/
namespace Turtle

namespace Number

variable {F : Format} {x : Number F}

/-- Not a number, or infinite without a minus sign. -/
def Endless (x : Number F) : Prop := x = nan ∨ x = infinite false

theorem endless_abs (beyond : x.isFinite = false) : x.abs.Endless := by
  cases x with
  | nan => exact .inl rfl
  | signed s a ha =>
    obtain rfl : a = F.infinity := Nat.le_antisymm ha (Nat.le_of_not_lt (of_decide_eq_false beyond))
    exact .inr rfl

theorem Endless.sub (endless : x.Endless) (y : Number F) : (x - y).Endless := by
  change (Number.add x y.neg).Endless
  rcases endless with rfl | rfl
  · exact .inl rfl
  · cases y with
    | nan => exact .inl rfl
    | signed t b hb =>
      simp only [infinite, Number.neg, Number.add, if_true]
      split
      · exact .inl rfl
      · exact .inr rfl

theorem Endless.not_le_zero (endless : x.Endless) (proper : F.infinity ≠ 0) : ¬ x ≤ 0 := by
  rcases endless with rfl | rfl
  · exact Bool.false_ne_true
  · rw [infinite, signed_le_zero_iff]
    simp [proper]

end Number

namespace Journey

variable {j : Journey}

/-- How the steps of a journey end, given their lengths of time. -/
def statuses (j : Journey) : List Single → List Status
  | [] => []
  | dt :: dts => (j.shorten dt).status :: (j.shorten dt).statuses dts

def Endless (j : Journey) : Prop := j.remaining.Endless

theorem endless_ofDistance {distance : Single} (beyond : distance.isFinite = false)
    (speed : Single) : (ofDistance distance speed).Endless :=
  Number.endless_abs beyond

theorem Endless.not_isOver (endless : j.Endless) : ¬ j.isOver = true := by
  rw [isOver, decide_eq_true_iff]
  exact endless.not_le_zero (by decide)

theorem Endless.shorten (endless : j.Endless) (dt : Single) : (j.shorten dt).Endless := by
  rw [Journey.shorten, if_neg endless.not_isOver]
  exact Number.Endless.sub endless _

theorem Endless.complete_notMem_statuses (endless : j.Endless) (dts : List Single) :
    .complete ∉ j.statuses dts := by
  induction dts generalizing j with
  | nil => exact List.not_mem_nil
  | cons dt dts ih =>
    have after := endless.shorten dt
    rw [statuses, List.mem_cons, not_or, eq_comm, status_eq_complete_iff]
    exact ⟨after.not_isOver, ih after⟩

end Journey

namespace Deed

/-- The length of time of a step. -/
def dt? : Deed → Option Single
  | .step dt => some dt
  | _ => none

/-- Neither places an actor nor sets it off. -/
def goesOn : Deed → Bool
  | .face _ => true
  | .step _ => true
  | _ => false

end Deed

namespace Actor

variable {a b : Actor} {deeds : List Deed} {deed : Deed}

def undergoAll (a : Actor) (deeds : List Deed) : Actor := deeds.foldl undergo a

/-- Only steps are answered, with the status that they end in. -/
def answer? (a : Actor) : Deed → Option Status
  | .step dt => some (a.step dt).2
  | _ => none

/-- The statuses of the steps among deeds, in order. -/
def statuses (a : Actor) : List Deed → List Status
  | [] => []
  | deed :: deeds => (a.answer? deed).toList ++ (a.undergo deed).statuses deeds

/-- It was set off since it was last placed, and no step after that has completed. -/
def Departed (a : Actor) (deeds : List Deed) : Prop :=
  ∃ before distance speed later, deeds = before ++ .setOff distance speed :: later ∧
    (∀ name pose, .place name pose ∉ later) ∧
    .complete ∉ ((a.undergoAll before).setOff distance speed).statuses later

theorem undergoAll_append (a : Actor) (first second : List Deed) :
    a.undergoAll (first ++ second) = (a.undergoAll first).undergoAll second :=
  List.foldl_append

theorem statuses_append (a : Actor) (first second : List Deed) :
    a.statuses (first ++ second) = a.statuses first ++ (a.undergoAll first).statuses second := by
  induction first generalizing a with
  | nil => rfl
  | cons deed first ih =>
    simp only [List.cons_append, statuses, ih, List.append_assoc]
    rfl

/-- An actor is moving after a step exactly if the step has not completed a journey. -/
theorem isMoving_step_iff (a : Actor) (dt : Single) :
    (a.step dt).1.isMoving = true ↔ (a.step dt).2 ≠ .complete := by
  cases ends : (a.step dt).2 with
  | running =>
    obtain ⟨journey, under, _⟩ := a.journey_of_running dt ends
    simp [isMoving, under]
  | complete => simp [isMoving, a.journey_of_complete dt ends]

theorem isMoving_undergo_iff :
    (a.undergo deed).isMoving = true ↔ (∃ distance speed, deed = .setOff distance speed) ∨
      a.isMoving = true ∧ (∀ name pose, deed ≠ .place name pose) ∧
        a.answer? deed ≠ some .complete := by
  cases deed with
  | place name pose => simp [undergo, place, isMoving]
  | setOff distance speed => simp [undergo, setOff, isMoving]
  | face rotation => simp [undergo, face, isMoving, answer?]
  | step dt =>
    have started (goesOn : (a.step dt).2 ≠ .complete) : a.isMoving = true := by
      cases under : a.journey with
      | none => exact absurd (congrArg Prod.snd (step_of_rest under dt)) goesOn
      | some journey => simp [isMoving, under]
    simpa [undergo, answer?, isMoving_step_iff] using started

theorem complete_notMem_statuses_concat :
    .complete ∉ a.statuses (deeds ++ [deed]) ↔
      .complete ∉ a.statuses deeds ∧ (a.undergoAll deeds).answer? deed ≠ some .complete := by
  rw [statuses_append, statuses, statuses, List.append_nil, List.mem_append, not_or,
    Option.mem_toList, ne_eq]

/-- What one more deed does to a departure mirrors what it does to an actor. -/
theorem departed_concat_iff :
    a.Departed (deeds ++ [deed]) ↔ (∃ distance speed, deed = .setOff distance speed) ∨
      a.Departed deeds ∧ (∀ name pose, deed ≠ .place name pose) ∧
        (a.undergoAll deeds).answer? deed ≠ some .complete := by
  constructor
  · rintro ⟨before, distance, speed, later, whole, unplaced, going⟩
    -- the last deed is the departure itself, or one of those after it
    rcases List.eq_nil_or_concat later with rfl | ⟨later, last, rfl⟩
    · obtain ⟨_, same⟩ := List.append_inj' whole rfl
      exact .inl ⟨distance, speed, (List.cons.inj same).1⟩
    · have regrouped : deeds ++ [deed] = (before ++ .setOff distance speed :: later) ++ [last] := by
        simpa using whole
      obtain ⟨rfl, same⟩ := List.append_inj' regrouped rfl
      obtain ⟨rfl, _⟩ := List.cons.inj same
      rw [List.concat_eq_append] at unplaced going
      obtain ⟨going, last⟩ := complete_notMem_statuses_concat.mp going
      refine .inr ⟨⟨before, distance, speed, later, rfl, ?_, going⟩, ?_, ?_⟩
      · exact fun name pose member => unplaced name pose (List.mem_append_left _ member)
      · rintro name pose rfl
        exact unplaced name pose List.mem_concat_self
      · rw [undergoAll_append]
        exact last
  · rintro (⟨distance, speed, rfl⟩ | ⟨departed, kept, last⟩)
    · exact ⟨deeds, distance, speed, [], rfl, by simp, List.not_mem_nil⟩
    · obtain ⟨before, distance, speed, later, rfl, unplaced, going⟩ := departed
      refine ⟨before, distance, speed, later ++ [deed], by simp, ?_, ?_⟩
      · intro name pose member
        rcases List.mem_append.mp member with earlier | here
        · exact unplaced name pose earlier
        · exact kept name pose (List.mem_singleton.mp here).symm
      · rw [undergoAll_append] at last
        exact complete_notMem_statuses_concat.mpr ⟨going, last⟩

theorem isMoving_undergoAll_iff (rest : a.isMoving = false) (deeds : List Deed) :
    (a.undergoAll deeds).isMoving = true ↔ a.Departed deeds := by
  -- from the last deed backwards, since a departure is judged by what comes after it
  induction deeds using List.reverseRecOn with
  | nil =>
    refine iff_of_false (Bool.not_eq_true _ ▸ rest) ?_
    rintro ⟨before, distance, speed, later, whole, _⟩
    cases (List.append_eq_nil_iff.mp whole.symm).2
  | append_singleton deeds deed ih =>
    rw [undergoAll_append, departed_concat_iff, ← ih]
    exact isMoving_undergo_iff

theorem step_of_moving {j : Journey} (under : a.journey = some j) (dt : Single) :
    (a.step dt).2 = (j.shorten dt).status ∧
      (a.step dt).1.journey = if (j.shorten dt).isOver then none else some (j.shorten dt) := by
  simp only [step, under, Journey.step_fst]
  cases ended : (j.shorten dt).isOver <;> simp [Journey.status, ended]

/-- The answers of an actor show no more of it than its journey. -/
theorem answer?_of_journey (same : a.journey = b.journey) (deed : Deed) :
    a.answer? deed = b.answer? deed ∧ (a.undergo deed).journey = (b.undergo deed).journey := by
  cases deed with
  | place name pose => exact ⟨rfl, rfl⟩
  | setOff distance speed => exact ⟨rfl, rfl⟩
  | face rotation => exact ⟨rfl, same⟩
  | step dt =>
    cases under : a.journey with
    | none =>
      rw [answer?, answer?, undergo, undergo, step_of_rest under, step_of_rest (same ▸ under)]
      exact ⟨rfl, same⟩
    | some j =>
      obtain ⟨first, left⟩ := step_of_moving under dt
      obtain ⟨second, right⟩ := step_of_moving (same ▸ under) dt
      exact ⟨congrArg some (first.trans second.symm), left.trans right.symm⟩

theorem statuses_of_journey (same : a.journey = b.journey) (deeds : List Deed) :
    a.statuses deeds = b.statuses deeds := by
  induction deeds generalizing a b with
  | nil => rfl
  | cons deed deeds ih =>
    obtain ⟨answer, after⟩ := answer?_of_journey same deed
    rw [statuses, statuses, answer, ih after]

/-- An actor is on a journey, or at rest because the journey is over. -/
def Tracks (a : Actor) (j : Journey) : Prop :=
  a.journey = some j ∨ a.journey = none ∧ j.isOver = true

theorem Tracks.step {j : Journey} (tracks : a.Tracks j) (dt : Single) :
    (a.step dt).2 = (j.shorten dt).status ∧ (a.step dt).1.Tracks (j.shorten dt) := by
  rcases tracks with under | ⟨rest, ended⟩
  · obtain ⟨status, after⟩ := step_of_moving under dt
    refine ⟨status, ?_⟩
    cases ended : (j.shorten dt).isOver with
    | true => exact .inr ⟨by rw [after, ended, if_pos rfl], ended⟩
    | false => exact .inl (by rw [after, ended, if_neg Bool.false_ne_true])
  · have same : j.shorten dt = j := if_pos ended
    rw [step_of_rest rest, same, Journey.status_of_isOver ended]
    exact ⟨rfl, .inr ⟨rest, ended⟩⟩

/-- Until an actor is placed or set off anew, its steps end as the journey alone has it. -/
theorem Tracks.statuses_eq {j : Journey} (tracks : a.Tracks j)
    (onward : ∀ deed ∈ deeds, deed.goesOn = true) :
    a.statuses deeds = j.statuses (deeds.filterMap Deed.dt?) := by
  induction deeds generalizing a j with
  | nil => rfl
  | cons deed deeds ih =>
    have later : ∀ deed ∈ deeds, deed.goesOn = true := fun other member =>
      onward other (List.mem_cons_of_mem deed member)
    cases deed with
    | place name pose => cases onward _ List.mem_cons_self
    | setOff distance speed => cases onward _ List.mem_cons_self
    | face rotation =>
      have still : (a.face rotation).Tracks j := tracks
      exact ih still later
    | step dt =>
      obtain ⟨status, after⟩ := tracks.step dt
      simp only [List.filterMap_cons, Deed.dt?, Journey.statuses, ← status, ← ih after later]
      rfl

/-- How an actor lives. It is moving if it was set off since it was last placed and no step after that has
completed; at rest, a step completes and changes nothing. When it is set off, nothing of what was done
before shows in how later steps end, and until it is placed or set off again they end as the new journey
alone has it, however the actor is turned. For a distance that is not finite no step ever completes,
whatever the speed and the lengths of the steps, and no command line gives such a distance. -/
theorem newest_departure_counts (deeds : List Deed) :
    let a := blank.undergoAll deeds
    (a.isMoving = true ↔ blank.Departed deeds) ∧
    (a.isMoving = false → ∀ dt, a.step dt = (a, .complete)) ∧
    (∀ distance speed later,
      (∀ others, (a.setOff distance speed).statuses later
        = ((blank.undergoAll others).setOff distance speed).statuses later) ∧
      ((∀ deed ∈ later, deed.goesOn = true) → (a.setOff distance speed).statuses later
        = (Journey.ofDistance distance speed).statuses (later.filterMap Deed.dt?))) ∧
    (∀ distance speed later, distance.isFinite = false → (∀ deed ∈ later, deed.goesOn = true) →
      .complete ∉ (a.setOff distance speed).statuses later) ∧
    (∀ line name distance, Command.ofLine line = .move name distance →
      distance.isFinite = true) := by
  intro a
  have departs (distance speed : Single) :
      (a.setOff distance speed).Tracks (.ofDistance distance speed) := .inl rfl
  refine ⟨isMoving_undergoAll_iff rfl deeds, ?_, ?_, ?_, ?_⟩
  · intro rest dt
    exact step_of_rest (Option.isNone_iff_eq_none.mp (Option.isSome_eq_false_iff.mp rest)) dt
  · intro distance speed later
    refine ⟨fun others => ?_, (departs distance speed).statuses_eq⟩
    have anew : (a.setOff distance speed).journey
        = ((blank.undergoAll others).setOff distance speed).journey := rfl
    exact statuses_of_journey anew later
  · intro distance speed later beyond onward
    rw [(departs distance speed).statuses_eq onward]
    exact (Journey.endless_ofDistance beyond speed).complete_notMem_statuses _
  · intro line name distance read
    exact Command.distance_isFinite read

/-- A departure in the middle of another takes two steps of its own. One for minus infinity is not ended
by a turn, nor by a step backwards in time. -/
theorem second_departure_counts :
    let deeds : List Deed := [.setOff 3 1, .step 1, .setOff 2 1, .face ⟨0, 1, 0, 0⟩, .step 1]
    let a := blank.undergoAll deeds
    let b := blank.undergoAll (deeds ++ [.step 1])
    let later : List Deed := [.step 1, .face .identity, .step (-3)]
    a.isMoving = true ∧ blank.Departed deeds ∧
      b.isMoving = false ∧ b.step 1 = (b, .complete) ∧
      (∀ deed ∈ later, deed.goesOn = true) ∧
      (a.setOff 2 1).statuses later = (Journey.ofDistance 2 1).statuses [1, -3] ∧
      (.infinite true : Single).isFinite = false ∧
      .complete ∉ (a.setOff (.infinite true) 1).statuses later ∧
      Command.ofLine "A.fd(2)" = .move "A" 2 ∧ (2 : Single).isFinite = true := by
  intro deeds a b later
  have moving : a.isMoving = true := by decide +kernel
  have rest : b.isMoving = false := by decide +kernel
  have onward : ∀ deed ∈ later, deed.goesOn = true := by decide +kernel
  have beyond : (.infinite true : Single).isFinite = false := by decide +kernel
  have read : Command.ofLine "A.fd(2)" = .move "A" 2 := by decide +kernel
  obtain ⟨departed, _, newest, endless, finite⟩ := newest_departure_counts deeds
  obtain ⟨_, still, _⟩ := newest_departure_counts (deeds ++ [.step 1])
  exact ⟨moving, departed.mp moving, rest, still rest 1, onward, (newest 2 1 later).2 onward, beyond,
    endless _ 1 later beyond onward, read, finite _ _ _ read⟩

end Actor
end Turtle
