import Mathlib.Algebra.GroupWithZero.Nat
import Turtle.Proofs.Beat

/-! Frames as divisions with remainder.
Of the time that is saved up, a frame spends as many whole ticks as there are in it, up to the cap. What
is left is less than a tick and is kept; past the cap it is given up. So no time goes missing but what a
frame is too long by and what is dropped, and as long as nothing is, it does not show how a time was cut
into frames. -/
namespace Turtle

namespace Plan

variable {length : Span}

theorem spend_eq (lasting : 0 < length) (used cap : Nat) (backlog : Span) :
    spend length used cap backlog
      = (used + min cap (backlog / length), backlog - min cap (backlog / length) * length) := by
  induction cap generalizing used backlog with
  | zero => simp [spend]
  | succ cap ih =>
    unfold spend
    split
    · rename_i enough
      have quotient := Nat.div_eq_sub_div lasting enough
      have spent : (min cap ((backlog - length) / length) + 1) * length
          = min cap ((backlog - length) / length) * length + length := Nat.succ_mul _ _
      rw [ih, quotient, Nat.add_min_add_right, spent]
      refine Prod.ext ?_ ?_
      · exact (Nat.add_right_comm _ _ _).trans (Nat.add_assoc _ _ _)
      · exact (Nat.sub_sub _ _ _).trans (congrArg _ (Nat.add_comm _ _))
    · rename_i short
      have none : backlog / length = 0 := Nat.div_eq_of_lt (Nat.lt_of_not_le short)
      simp [none]

theorem spend_of_no_length (used cap : Nat) (backlog : Span) :
    spend 0 used cap backlog = (used + cap, backlog) := by
  induction cap generalizing used with
  | zero => rfl
  | succ cap ih =>
    unfold spend
    rw [if_pos (Nat.zero_le _), Nat.sub_zero, ih, Nat.add_assoc, Nat.add_comm 1 cap]

theorem ofBacklog_of_quotient_le (lasting : 0 < length) {cap : Nat} {backlog : Span}
    (within : backlog / length ≤ cap) :
    ofBacklog length cap backlog = ⟨backlog / length, backlog % length, 0⟩ := by
  have rest : backlog - backlog / length * length = backlog % length := by
    rw [Nat.mul_comm, Nat.mod_eq_sub]
  have less : ¬ length ≤ backlog % length := Nat.not_le_of_lt (Nat.mod_lt _ lasting)
  unfold ofBacklog
  rw [spend_eq lasting, Nat.min_eq_right within, rest]
  simp only [Nat.zero_add, if_neg less]

theorem ofBacklog_of_lt_quotient (lasting : 0 < length) {cap : Nat} {backlog : Span}
    (beyond : cap < backlog / length) :
    ofBacklog length cap backlog = ⟨cap, 0, backlog - cap * length⟩ := by
  have more : length ≤ backlog - cap * length := by
    have reached := (Nat.le_div_iff_mul_le lasting).mp beyond
    rw [Nat.succ_mul, Nat.add_comm] at reached
    exact Nat.le_sub_of_add_le reached
  unfold ofBacklog
  rw [spend_eq lasting, Nat.min_eq_left (Nat.le_of_lt beyond)]
  simp only [Nat.zero_add, if_pos more]

theorem ofBacklog_of_no_length (cap : Nat) (backlog : Span) :
    ofBacklog 0 cap backlog = ⟨cap, 0, backlog⟩ := by
  unfold ofBacklog
  rw [spend_of_no_length]
  simp only [Nat.zero_add, if_pos (Nat.zero_le backlog)]

/-- The three kinds of plan: of ticks without length, within the cap, and past it. -/
theorem ofBacklog_cases (length : Span) (cap : Nat) (backlog : Span) :
    (length = 0 ∧ ofBacklog length cap backlog = ⟨cap, 0, backlog⟩) ∨
      (0 < length ∧ backlog / length ≤ cap ∧
        ofBacklog length cap backlog = ⟨backlog / length, backlog % length, 0⟩) ∨
      (0 < length ∧ cap < backlog / length ∧
        ofBacklog length cap backlog = ⟨cap, 0, backlog - cap * length⟩) := by
  rcases Nat.eq_zero_or_pos length with rfl | lasting
  · exact .inl ⟨rfl, ofBacklog_of_no_length cap backlog⟩
  · rcases Nat.lt_or_ge cap (backlog / length) with beyond | within
    · exact .inr (.inr ⟨lasting, beyond, ofBacklog_of_lt_quotient lasting beyond⟩)
    · exact .inr (.inl ⟨lasting, within, ofBacklog_of_quotient_le lasting within⟩)

/-- A plan accounts for all of the time that was saved up. -/
theorem accounts (length : Span) (cap : Nat) (backlog : Span) :
    let plan := ofBacklog length cap backlog
    plan.ticks * length + plan.backlog + plan.dropped = backlog := by
  rcases ofBacklog_cases length cap backlog with ⟨rfl, same⟩ | ⟨_, _, same⟩ | ⟨lasting, beyond, same⟩
  · rw [same]
    simp
  · rw [same]
    exact Nat.div_add_mod' backlog length
  · have reached := (Nat.le_div_iff_mul_le lasting).mp (Nat.le_of_lt beyond)
    rw [same]
    dsimp only
    omega

theorem ticks_ofBacklog (length : Span) (cap : Nat) (backlog : Span) :
    (ofBacklog length cap backlog).ticks = if length = 0 then cap else min cap (backlog / length) := by
  rcases ofBacklog_cases length cap backlog with ⟨none, same⟩ | ⟨lasting, within, same⟩
    | ⟨lasting, beyond, same⟩
  · rw [same, if_pos none]
  · rw [same, if_neg (Nat.ne_of_gt lasting), Nat.min_eq_right within]
  · rw [same, if_neg (Nat.ne_of_gt lasting), Nat.min_eq_left (Nat.le_of_lt beyond)]

theorem backlog_ofBacklog (length : Span) (cap : Nat) (backlog : Span) :
    (ofBacklog length cap backlog).backlog
      = if 0 < length ∧ backlog / length ≤ cap then backlog % length else 0 := by
  rcases ofBacklog_cases length cap backlog with ⟨none, same⟩ | ⟨lasting, within, same⟩
    | ⟨_, beyond, same⟩
  · rw [same, if_neg fun both => Nat.ne_of_gt both.1 none]
  · rw [same, if_pos ⟨lasting, within⟩]
  · rw [same, if_neg fun both => Nat.not_le_of_lt beyond both.2]

theorem backlog_lt (length : Span) (cap : Nat) (backlog : Span) :
    (ofBacklog length cap backlog).backlog = 0 ∨ (ofBacklog length cap backlog).backlog < length := by
  rcases ofBacklog_cases length cap backlog with ⟨_, same⟩ | ⟨lasting, _, same⟩ | ⟨_, _, same⟩
  · exact .inl (by rw [same])
  · exact .inr (by rw [same]; exact Nat.mod_lt _ lasting)
  · exact .inl (by rw [same])

/-- If nothing is dropped, the time was no more than the cap allows and a last tick begun. -/
theorem lt_of_dropped_eq_zero (lasting : 0 < length) {cap : Nat} {backlog : Span}
    (kept : (ofBacklog length cap backlog).dropped = 0) : backlog < (cap + 1) * length := by
  rcases ofBacklog_cases length cap backlog with ⟨none, _⟩ | ⟨_, within, _⟩ | ⟨_, beyond, same⟩
  · exact absurd lasting (none ▸ Nat.lt_irrefl 0)
  · exact (Nat.div_lt_iff_lt_mul lasting).mp (Nat.lt_succ_of_le within)
  · have reached := (Nat.le_div_iff_mul_le lasting).mp beyond
    rw [Nat.succ_mul] at reached
    have covered : backlog ≤ cap * length := by
      rw [same] at kept
      exact Nat.le_of_sub_eq_zero kept
    exact absurd (Nat.le_trans reached covered) (Nat.not_le_of_lt (Nat.lt_add_of_pos_right lasting))

end Plan

namespace Pacer

variable {pace : Pace} {p : Pacer}

/-- The pacers that frames lead to, whatever schedulers they are spent on. -/
inductive Reached (pace : Pace) : Pacer → Prop where
  | start : Reached pace (.ofPace pace)
  | advance {p : Pacer} (frame : Span) (s : Scheduler) :
      Reached pace p → Reached pace (p.advance frame s).2.1

/-- The pacer after a frame. -/
def after (p : Pacer) (frame : Span) : Pacer := { p with backlog := (p.plan frame).backlog }

/-- Frames one after the other, with the ticks they come to in all. -/
def advances : Pacer → List Span → Scheduler → Nat × Pacer × Scheduler
  | p, [], s => (0, p, s)
  | p, frame :: frames, s =>
    let (ticks, p, s) := p.advance frame s
    let (more, p, s) := p.advances frames s
    (ticks + more, p, s)

/-- The time that some frames give up in all. -/
def dropped : Pacer → List Span → Span
  | _, [] => 0
  | p, frame :: frames => (p.plan frame).dropped + (p.after frame).dropped frames

/-- What is saved up never exceeds the greatest length of time that is kept. -/
def Fits : Pacer → List Span → Prop
  | _, [] => True
  | p, frame :: frames =>
    p.backlog + min frame p.maxFrame ≤ Span.longest ∧ (p.after frame).Fits frames

theorem advances_cons (p : Pacer) (frame : Span) (frames : List Span) (s : Scheduler) :
    p.advances (frame :: frames) s =
      let later := (p.after frame).advances frames (s.ticks p.dt (p.plan frame).ticks)
      ((p.plan frame).ticks + later.1, later.2) := rfl

theorem Reached.advances (reached : Reached pace p) (frames : List Span) (s : Scheduler) :
    Reached pace (p.advances frames s).2.1 := by
  induction frames generalizing p s with
  | nil => exact reached
  | cons frame frames ih => exact ih (reached.advance frame s) _

/-- Frames change nothing of a pacer but its backlog, which stays below the length of a tick. -/
theorem Reached.settings (reached : Reached pace p) :
    p.tickLength = pace.tickLength ∧ p.maxFrame = (ofPace pace).maxFrame ∧
      p.maxTicks = max 1 pace.maxTicks ∧ (p.backlog = 0 ∨ p.backlog < pace.tickLength) := by
  induction reached with
  | start =>
    simp [ofPace]
  | @advance p frame s _ ih =>
    obtain ⟨length, longest, cap, _⟩ := ih
    refine ⟨length, longest, cap, ?_⟩
    rw [← length]
    exact Plan.backlog_lt _ _ _

/-- The scheduler is ticked as often as is counted, and does not bear on the pacer. -/
theorem advances_eq (p : Pacer) (frames : List Span) :
    ∃ ticks backlog, ∀ s : Scheduler,
      p.advances frames s = (ticks, { p with backlog := backlog }, s.ticks p.dt ticks) := by
  induction frames generalizing p with
  | nil => exact ⟨0, p.backlog, fun _ => rfl⟩
  | cons frame frames ih =>
    obtain ⟨more, backlog, later⟩ := ih (p.after frame)
    refine ⟨(p.plan frame).ticks + more, backlog, fun s => ?_⟩
    rw [advances_cons, later, Scheduler.ticks_add]
    rfl

/-- One frame spends, keeps or drops all that is saved up, which is no more than the time given. -/
theorem plan_accounts (p : Pacer) (frame : Span) :
    ∃ saved : Nat, (p.plan frame).ticks * p.tickLength + (p.after frame).backlog
        + (p.plan frame).dropped = saved ∧
      saved ≤ p.backlog + min frame p.maxFrame ∧
      (p.backlog + min frame p.maxFrame ≤ Span.longest →
        saved = p.backlog + min frame p.maxFrame) :=
  ⟨p.backlog.plus (min frame p.maxFrame), Plan.accounts _ _ _, Nat.min_le_right _ _,
    Nat.min_eq_right⟩

/-- Time that comes in is spent, kept or dropped, and none is made up. The one loss besides is what is
saved up beyond the greatest length of time. -/
theorem advances_accounts (p : Pacer) (frames : List Span) (s : Scheduler) :
    let run := p.advances frames s
    let spent : Nat := run.1 * p.tickLength + run.2.1.backlog + p.dropped frames
    let given : Nat := p.backlog + (frames.map fun frame => min frame p.maxFrame).sum
    spent ≤ given ∧ (p.Fits frames → spent = given) := by
  induction frames generalizing p s with
  | nil => simp [advances, dropped]
  | cons frame frames ih =>
    obtain ⟨bounded, exact⟩ := ih (p.after frame) (s.ticks p.dt (p.plan frame).ticks)
    obtain ⟨saved, first, under, whole⟩ := p.plan_accounts frame
    have length : (p.after frame).tickLength = p.tickLength := rfl
    have longest : (p.after frame).maxFrame = p.maxFrame := rfl
    simp only [length, longest] at bounded exact
    simp only [advances_cons, List.map_cons, List.sum_cons, dropped, Nat.add_mul]
    constructor
    · omega
    · rintro ⟨fits, rest⟩
      have here := whole fits
      have later := exact rest
      omega

/-- A frame, whatever came before it: as many ticks as there are whole ones in the time saved up, but no
more than the cap, and what is left over is kept if the cap allows all of them. Over any frames, the time
given is the time spent, kept and dropped, as long as the greatest length of time is not passed; and no
more is ever spent than was given. -/
theorem advance_eq_division (reached : Reached pace p) (frame : Span) (s : Scheduler) :
    let length := pace.tickLength
    let cap := max 1 pace.maxTicks
    let longest := if pace.maxFrame = 0 then .ofMillis 250 else pace.maxFrame
    let saved := min Span.longest (p.backlog + min frame longest)
    let ticks := if length = 0 then cap else min cap (saved / length)
    let rest := if 0 < length ∧ saved / length ≤ cap then saved % length else 0
    p.advance frame s = (ticks, { p with backlog := rest }, s.ticks length.seconds ticks) ∧
    (rest = 0 ∨ rest < length) ∧
    ∀ frames s,
      let run := p.advances frames s
      let spent : Nat := run.1 * length + run.2.1.backlog + p.dropped frames
      let given : Nat := p.backlog + (frames.map fun frame => min frame longest).sum
      spent ≤ given ∧ (p.Fits frames → spent = given) := by
  obtain ⟨length, longest, cap, _⟩ := reached.settings
  have widest : p.maxFrame = if pace.maxFrame = 0 then .ofMillis 250 else pace.maxFrame := longest
  intro D M F saved ticks rest
  have plan : p.plan frame = .ofBacklog D M saved := by
    unfold Pacer.plan
    rw [length, widest, cap]
    rfl
  have some : (p.plan frame).ticks = ticks := by rw [plan, Plan.ticks_ofBacklog]
  have left : (p.plan frame).backlog = rest := by rw [plan, Plan.backlog_ofBacklog]
  refine ⟨?_, ?_, ?_⟩
  · unfold Pacer.advance
    dsimp only
    rw [some, left, dt, length]
  · rw [← left, plan]
    exact Plan.backlog_lt D M saved
  · intro frames s
    have accounts := p.advances_accounts frames s
    rw [length, widest] at accounts
    exact accounts

/-- At a thousand ticks a second and two a frame, the third frame gives up three milliseconds and a
half. -/
theorem late_frame_is_cut :
    let pace : Pace := ⟨1000, 0, 2, .second⟩
    let s := Scheduler.ofRules .standard
    let p := ((ofPace pace).advance 1500000 s).2.1
    let run := p.advances [600000, 5400000] s
    Reached pace p ∧ p.backlog = 500000 ∧ p.advance 5400000 s = (2, { p with backlog := 0 }, s) ∧
      p.dropped [600000, 5400000] = 3500000 ∧
      run.1 * 1000000 + run.2.1.backlog + 3500000 = 500000 + (600000 + 5400000) := by
  intro pace s p run
  have reached : Reached pace p := .advance _ _ .start
  obtain ⟨same, _, accounts⟩ := advance_eq_division reached 5400000 s
  have fits : p.Fits [600000, 5400000] := ⟨by decide +kernel, by decide +kernel, trivial⟩
  have whole := (accounts [600000, 5400000] s).2 fits
  have length : pace.tickLength = 1000000 := by decide +kernel
  have dropped : p.dropped [600000, 5400000] = 3500000 := by decide +kernel
  rw [length, dropped] at whole
  refine ⟨reached, by decide +kernel, same.trans ?_, dropped, whole.trans ?_⟩
  · decide +kernel
  · decide +kernel

/-- With a cap of less than `2 ^ 32` ticks, nothing is dropped only where what is saved up stays far below
the greatest length of time. -/
theorem Reached.fits (reached : Reached pace p) (lasting : 0 < pace.tickLength)
    (capped : pace.maxTicks < twoTo 32) {frames : List Span} (kept : p.dropped frames = 0) :
    p.Fits frames := by
  induction frames generalizing p with
  | nil => exact trivial
  | cons frame frames ih =>
    obtain ⟨length, _, cap, _⟩ := reached.settings
    obtain ⟨here, later⟩ := Nat.add_eq_zero_iff.mp kept
    refine ⟨?_, ih (reached.advance frame (.ofRules .standard)) later⟩
    have under := Plan.lt_of_dropped_eq_zero (length ▸ lasting) here
    have ceiling : (p.maxTicks + 1) * p.tickLength ≤ twoTo 32 * Span.second := by
      rw [length, cap]
      refine Nat.mul_le_mul ?_ pace.tickLength_le_second
      exact Nat.succ_le_of_lt (Nat.max_lt.mpr ⟨by decide, capped⟩)
    have far : twoTo 32 * Span.second ≤ Span.longest := by decide
    apply Nat.le_of_not_lt
    -- The greatest length of time is more than the cap allows, so some of it would be dropped.
    intro past
    have full : p.backlog.plus (min frame p.maxFrame) = Span.longest :=
      Nat.min_eq_left (Nat.le_of_lt past)
    rw [full] at under
    exact absurd (Nat.le_trans ceiling far) (Nat.not_le_of_lt under)

/-- Frames that are not too long and drop nothing come to one division of the time they take in all. -/
theorem Reached.advances_eq_division (reached : Reached pace p) (lasting : 0 < pace.tickLength)
    (capped : pace.maxTicks < twoTo 32) {frames : List Span}
    (short : ∀ frame ∈ frames, frame ≤ p.maxFrame) (kept : p.dropped frames = 0) (s : Scheduler) :
    let total := p.backlog + frames.sum
    p.advances frames s = (total / pace.tickLength, { p with backlog := total % pace.tickLength },
      s.ticks p.dt (total / pace.tickLength)) := by
  intro total
  obtain ⟨ticks, backlog, run⟩ := p.advances_eq frames
  obtain ⟨length, _⟩ := reached.settings
  have whole := (p.advances_accounts frames s).2 (reached.fits lasting capped kept)
  have uncut : (frames.map fun frame => min frame p.maxFrame) = frames := by
    rw [List.map_congr_left fun frame member => Nat.min_eq_left (short frame member), List.map_id']
  have less : backlog < pace.tickLength := by
    have last := (reached.advances frames s).settings
    rw [run] at last
    exact last.2.2.2.elim (fun none => Nat.lt_of_le_of_lt (Nat.le_of_eq none) lasting) id
  rw [run, uncut, kept, length, Nat.add_zero, Nat.add_comm, Nat.mul_comm] at whole
  have divided : backlog + pace.tickLength * ticks = total := whole
  obtain ⟨quotient, remainder⟩ := (Nat.div_mod_unique lasting).mpr ⟨divided, less⟩
  rw [run, quotient, remainder]

/-- How a span of time is cut into frames does not show, as long as no frame is too long and nothing is
dropped. A cap takes 32 bits, which keeps what is saved up below the greatest length of time. -/
theorem advances_eq_of_sum_eq (reached : Reached pace p) (lasting : 0 < pace.tickLength)
    (capped : pace.maxTicks < twoTo 32) {first second : List Span} (together : first.sum = second.sum)
    (short : ∀ frame ∈ first ++ second, frame ≤ p.maxFrame) (kept : p.dropped first = 0)
    (too : p.dropped second = 0) (s : Scheduler) : p.advances first s = p.advances second s := by
  have one := reached.advances_eq_division lasting capped
    (fun frame member => short frame (List.mem_append_left _ member)) kept s
  have other := reached.advances_eq_division lasting capped
    (fun frame member => short frame (List.mem_append_right _ member)) too s
  rw [one, other, together]

/-- Five milliseconds and a half, after half a millisecond, in two frames and in four. -/
theorem two_frames_or_four :
    let pace : Pace := ⟨1000, 0, 3, .second⟩
    let s := ((Scheduler.ofRules .standard).submit "A=Turtle()").2
    let p := ((ofPace pace).advance 500000 s).2.1
    let first := [2600000, 2900000]
    let second := [400000, 0, 3000000, 2100000]
    Reached pace p ∧ 0 < pace.tickLength ∧ first.sum = second.sum ∧
      (∀ frame ∈ first ++ second, frame ≤ p.maxFrame) ∧ p.dropped first = 0 ∧ p.dropped second = 0 ∧
      (p.advances first s).1 = 6 ∧ (p.advances first s).2.2.completed = 1 ∧
      p.advances first s = p.advances second s := by
  intro pace s p first second
  have reached : Reached pace p := .advance _ _ .start
  have lasting : 0 < pace.tickLength := by decide +kernel
  have together : first.sum = second.sum := by decide +kernel
  have short : ∀ frame ∈ first ++ second, frame ≤ p.maxFrame := by decide +kernel
  have kept : p.dropped first = 0 := by decide +kernel
  have too : p.dropped second = 0 := by decide +kernel
  exact ⟨reached, lasting, together, short, kept, too, by decide +kernel, by decide +kernel,
    advances_eq_of_sum_eq reached lasting (by decide) together short kept too s⟩

end Pacer
end Turtle
