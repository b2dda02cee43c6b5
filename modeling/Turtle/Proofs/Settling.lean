import Turtle.Proofs.Frames
import Turtle.Proofs.Refinement

/-! How long a scheduler takes to become idle.
A tick that finds something to do tells of at least one event, and no more is ever told than the
interpreter tells. So where the interpreter gets to the end of its lines, there are enough ticks as
soon as there are as many of them as events. -/
namespace Turtle

theorem Stage.events_ne_nil {s : Stage} {dt : Single} {underway : Option Underway}
    {outcome : Outcome} (works : s.Work dt underway outcome) : outcome.events ≠ [] := by
  cases works with
  | refused failure _ => simp [fail]
  | exhausted name _ => simp [fail]
  | spawned name _ _ => simp [enroll]
  | answered into name slot actor _ _ => simp
  | departed move distance actor _ _ => simp [depart]
  | resumed move actor _ _ => cases (actor.step dt).2 <;> simp [stepped]

theorem Scheduler.Coherent.emits_ne_nil {s : Scheduler} (coherent : s.Coherent)
    (busy : s.isIdle = false) (dt : Single) : s.emits dt ≠ [] := by
  rcases coherent.tick_cases dt with ⟨idle, _, _⟩ | ⟨outcome, works, _, told⟩
  · cases busy.symm.trans idle
  · rw [told]
    exact Stage.events_ne_nil works

namespace Scheduler

/-- No tick looks at the outbox. -/
theorem tick_withOutbox (s : Scheduler) (dt : Single) (outbox : Outbox) :
    { s with outbox := outbox }.tick dt
      = { s.tick dt with outbox := outbox.pushAll (s.emits dt) } := by
  obtain ⟨stage, queue, underway, before, completed⟩ := s
  cases underway with
  | some move => rfl
  | none =>
    cases queue with
    | nil => rfl
    | cons line queue => rfl

theorem ticks_withOutbox (s : Scheduler) (dt : Single) (n : Nat) (outbox : Outbox) :
    ∃ after, { s with outbox := outbox }.ticks dt n = { s.ticks dt n with outbox := after } := by
  induction n generalizing s outbox with
  | zero => exact ⟨outbox, rfl⟩
  | succ n ih =>
    obtain ⟨after, same⟩ := ih (s.tick dt) (outbox.pushAll (s.emits dt))
    exact ⟨after, by rw [ticks, tick_withOutbox, same]; rfl⟩

end Scheduler

namespace Session

variable {s : Session}

theorem deliver_of_alone (alone : s.replies = []) :
    s.deliver
      = ⟨s.scheduler.drain.2, [], s.delivered ++ s.scheduler.outbox.waiting⟩ := by
  rw [deliver_eq_hear]
  simp [hear, withOutbox, alone, Scheduler.drain, Outbox.drain]

/-- Turns come to the same as ticks but for the outbox, if nobody replies. -/
theorem scheduler_settle (alone : s.replies = []) (dt : Single) (limit : Nat) :
    ∃ outbox, (s.settle dt limit).scheduler
      = { s.scheduler.ticks dt limit with outbox := outbox } := by
  induction limit generalizing s with
  | zero => exact ⟨s.scheduler.outbox, rfl⟩
  | succ limit ih =>
    unfold settle
    split
    · rename_i idle
      exact ⟨s.scheduler.outbox, by rw [Scheduler.ticks_of_isIdle idle]⟩
    · have turned : s.turn dt = _ := deliver_of_alone (s := s.tick dt) alone
      obtain ⟨outbox, later⟩ := ih (s := s.turn dt) (by rw [turned])
      obtain ⟨after, same⟩ := Scheduler.ticks_withOutbox (s.scheduler.tick dt) dt limit
        ⟨[], (s.scheduler.tick dt).outbox.dropped⟩
      refine ⟨outbox, ?_⟩
      rw [later, turned]
      simp only [tick, Scheduler.drain, Outbox.drain, Scheduler.ticks, same]

end Session

namespace Transcript

variable {dt : Single} {patience : Nat}

/-- An interpreter that got to the end of its lines would not have needed more patience. -/
theorem interpret_of_free {rules : Rules} {lines : List String}
    (free : (interpret rules dt patience lines).underway = none) (more : Nat) :
    interpret rules dt (patience + more) lines = interpret rules dt patience lines := by
  rcases interpret_behind rules more lines with same | ⟨lost, _⟩
  · exact same
  · rw [free] at lost
    cases lost

end Transcript

namespace History

variable {permitted : Single → Prop} {rules : Rules} {h : History} {dt : Single} {patience : Nat}

theorem accepted_ticks (h : History) (dt : Single) (n : Nat) :
    (h.ticks dt n).accepted = h.accepted := by
  induction n generalizing h with
  | zero => rfl
  | succ n ih => exact ih (h.tick dt)

theorem ticks_succ (h : History) (dt : Single) (n : Nat) :
    h.ticks dt (n + 1) = (h.ticks dt n).tick dt := by
  induction n generalizing h with
  | zero => rfl
  | succ n ih => exact ih (h.tick dt)

theorem Reached.length_tick (reached : Reached permitted rules h)
    (busy : h.scheduler.isIdle = false) (dt : Single) :
    h.emitted.length < (h.tick dt).emitted.length := by
  have told := List.length_pos_iff.mpr (reached.coherent.emits_ne_nil busy dt)
  have longer : (h.tick dt).emitted.length = _ := List.length_append
  omega

theorem Reached.length_ticks (reached : Reached permitted rules h) (allowed : permitted dt)
    {n : Nat} (busy : (h.ticks dt n).scheduler.isIdle = false) :
    h.emitted.length + n < (h.ticks dt (n + 1)).emitted.length := by
  induction n with
  | zero => exact reached.length_tick busy dt
  | succ n ih =>
    have before : (h.ticks dt n).scheduler.isIdle = false := by
      apply Bool.eq_false_iff.mpr
      intro idle
      rw [ticks_succ, History.tick, Scheduler.tick_of_isIdle idle, idle] at busy
      cases busy
    have longer := (reached.ticks allowed (n + 1)).length_tick busy dt
    rw [ticks_succ]
    have earlier := ih before
    omega

/-- If the interpreter gets to the end of the accepted lines, it tells all that is ever told of
them. -/
theorem Reached.prefix_of_free (reached : Reached (· = dt) rules h)
    (free : (Transcript.interpret rules dt patience h.accepted).underway = none) :
    h.emitted <+: (Transcript.interpret rules dt patience h.accepted).events ∧
    (h.scheduler.isIdle = true →
      h.emitted = (Transcript.interpret rules dt patience h.accepted).events) := by
  have refined := reached.refines (patience + (h.emitted.length + 1)) (by omega)
  rw [Transcript.interpret_of_free free] at refined
  exact ⟨refined.1, fun idle => (refined.2 idle).2.1⟩

theorem Reached.isIdle_ticks (reached : Reached (· = dt) rules h)
    (free : (Transcript.interpret rules dt patience h.accepted).underway = none) {n : Nat}
    (enough : (Transcript.interpret rules dt patience h.accepted).events.length ≤ n) :
    (h.ticks dt n).scheduler.isIdle = true := by
  apply Decidable.byContradiction
  intro busy
  have told := reached.length_ticks rfl (Bool.eq_false_iff.mpr busy)
  have also : (Transcript.interpret rules dt patience (h.ticks dt (n + 1)).accepted).underway
      = none := by rw [accepted_ticks]; exact free
  have few := ((reached.ticks rfl (n + 1)).prefix_of_free also).1.length_le
  rw [accepted_ticks] at few
  omega

end History
end Turtle
