import Turtle.Config.Basic
import Turtle.Proofs.Beat
import Turtle.Proofs.Coherence
import Turtle.Proofs.Strides
import Mathlib.Data.Nat.Find

/-! Whether a move completes.
In a session with a valid configuration every tick takes the same stride, and a move is a countdown
with it. Validation rules out a speed that is not positive, but not a stride that is lost in
rounding: of a distance too long for it, or of any distance if a tick is too short to be
measured. -/
namespace Turtle

namespace Scheduler

variable {s : Scheduler} {dt speed : Single} {name : String} {behind : List String}
  {code stride : Nat}

/-- A move is under way with a part of its journey before it, and lines wait behind it. -/
def Walking (s : Scheduler) (name : String) (speed : Single) (behind : List String)
    (code : Nat) : Prop :=
  ∃ slot actor, s.underway = some ⟨slot, name⟩ ∧ s.stage.pool.get? slot = some actor ∧
    actor.Ahead speed code ∧ s.queue = behind

def Arrived (s : Scheduler) (events : List Event) (name : String) (behind : List String) : Prop :=
  s.underway = none ∧ s.queue = behind ∧
    ∃ position, events.getLast? = some (.moveCompleted name position)

theorem walking_conclude {stage : Stage} {slot : Slot} {actor after : Actor} {events : List Event}
    (found : stage.pool.get? slot = some actor) (active : after.active = true)
    (ahead : after.Ahead speed code) (queued : s.queue = behind) :
    (s.conclude ⟨{ stage with pool := stage.pool.set slot after }, events,
      some ⟨slot, name⟩⟩).Walking name speed behind code := by
  have filled := Pool.get?_set_self (Pool.lt_capacity_of_get? found) active
  exact ⟨slot, after, rfl, filled, ahead, queued⟩

/-- A line that sets a bound actor off is next, with other lines behind it. -/
structure SetsOff (s : Scheduler) (name : String) (distance : Single) (behind : List String) :
    Prop where
  free : s.underway = none
  next : ∃ line, s.queue = line :: behind ∧ Command.ofLine line = .move name distance
  bound : (s.stage.actors.find? name).isSome = true

end Scheduler

namespace History

variable {h : History} {dt speed : Single} {name : String} {behind : List String}
  {code stride : Nat}

/-- How a move stands of whose journey a code is left: it is over if nothing is left, and under way
otherwise. -/
def Stands (h : History) (name : String) (speed : Single) (behind : List String)
    (code : Nat) : Prop :=
  if code = 0 then h.scheduler.Arrived h.emitted name behind
  else h.scheduler.Walking name speed behind code

/-- Every tick of a move under way takes one stride from what is left. -/
theorem stands_tick_of_walking (walking : h.scheduler.Walking name speed behind code) {bounded}
    (strides : speed * dt = .signed false stride bounded) :
    (h.tick dt).Stands name speed behind (Format.single.left stride code) := by
  obtain ⟨slot, actor, busy, found, ahead, queued⟩ := walking
  obtain ⟨next, told⟩ := Scheduler.tick_of_move busy dt
  unfold Stands History.tick
  rw [next, told, Stage.resume_of_get? found]
  split
  · rename_i nothing
    rw [ahead.step_of_nothing_left strides nothing]
    exact ⟨rfl, queued, _, List.getLast?_concat⟩
  · rename_i more
    obtain ⟨goesOn, still⟩ := ahead.step_of_left strides more
    rw [goesOn]
    exact Scheduler.walking_conclude found (Stage.active_step found dt) still queued

/-- The first tick of a move takes one stride from its whole distance. -/
theorem stands_tick_of_setsOff {distance : Single}
    (sets : h.scheduler.SetsOff name distance behind) (coherent : h.scheduler.Coherent) {bounded}
    (strides : h.scheduler.stage.rules.speed * dt = .signed false stride bounded) :
    (h.tick dt).Stands name h.scheduler.stage.rules.speed behind
      (Format.single.left stride distance.code) := by
  obtain ⟨free, ⟨line, queued, read⟩, bound⟩ := sets
  obtain ⟨slot, bound⟩ := Option.isSome_iff_exists.mp bound
  rw [Scheduler.Coherent, free] at coherent
  obtain ⟨actor, found⟩ := Option.isSome_iff_exists.mp (coherent.boundInUse name slot bound)
  obtain ⟨next, told⟩ := Scheduler.tick_of_line free queued dt
  have ahead := Actor.ahead_setOff (a := actor) (Command.distance_isFinite read)
    h.scheduler.stage.rules.speed
  have departs : h.scheduler.stage.perform dt (.ofLine line)
      = h.scheduler.stage.depart dt ⟨slot, name⟩ distance actor := by
    rw [read]
    exact Stage.move_of_get? bound found distance
  unfold Stands History.tick
  rw [next, told, departs]
  split
  · rename_i nothing
    rw [Stage.depart_of_complete (ahead.step_of_nothing_left strides nothing)]
    exact ⟨rfl, rfl, _, by rw [List.getLast?_append]; rfl⟩
  · rename_i more
    obtain ⟨goesOn, still⟩ := ahead.step_of_left strides more
    have active := Stage.active_step_setOff found distance h.scheduler.stage.rules.speed dt
    rw [Stage.depart_of_running goesOn]
    exact Scheduler.walking_conclude found active still rfl

/-- While something is left, more ticks take more strides. -/
theorem Stands.ticks (stands : h.Stands name speed behind code) {bounded}
    (strides : speed * dt = .signed false stride bounded) (n : Nat)
    (going : ∀ k < n, (Format.single.left stride)^[k] code ≠ 0) :
    (h.ticks dt n).Stands name speed behind ((Format.single.left stride)^[n] code) := by
  induction n generalizing h code with
  | zero => exact stands
  | succ n ih =>
    have proper : code ≠ 0 := going 0 (Nat.succ_pos n)
    rw [Stands, if_neg proper] at stands
    apply ih (stands_tick_of_walking stands strides)
    intro k less
    exact going (k + 1) (Nat.succ_lt_succ less)

end History

namespace Config

def stride (c : Config) : Single := c.moveSpeed * (Pacer.ofPace c.pace).dt

/-- Whether the strides of a session bring a distance to its end: that is so if the stride is more
than half the gap between the distance and the next smaller number, and just where the gaps get
narrower also if it is half the gap. -/
def Covers (c : Config) (distance : Single) : Prop :=
  Format.single.CountsDown c.stride.code distance.code

instance (c : Config) (distance : Single) : Decidable (c.Covers distance) :=
  inferInstanceAs (Decidable (Format.single.CountsDown _ _))

theorem speed_of_valid {c : Config} (valid : c.invalid? = none) :
    c.moveSpeed.isFinite = true ∧ ¬ c.moveSpeed ≤ 0 := by
  unfold invalid? at valid
  split at valid
  · cases valid
  · split at valid
    · cases valid
    · rename_i proper
      simpa only [not_or, not_not] using proper

theorem unsigned_stride {c : Config} (valid : c.invalid? = none) : c.stride.Unsigned := by
  obtain ⟨finite, positive⟩ := speed_of_valid valid
  have ticks : (Pacer.ofPace c.pace).dt.Unsigned := Span.unsigned_seconds _
  unfold stride
  cases speed : c.moveSpeed with
  | nan =>
    rw [speed] at finite
    cases finite
  | signed negative code bounded =>
    rw [speed] at finite positive
    rw [Number.signed_le_zero_iff, not_or, Bool.not_eq_true] at positive
    obtain ⟨rfl, proper⟩ := positive
    exact Number.Unsigned.mul ⟨_, _, rfl⟩ ticks finite (beq_eq_false_iff_ne.mpr proper)

end Config

namespace History

/-- A move completes with the tick that follows `n` others: it is under way after each of these,
and then its completion is the last thing told and it is the turn of the lines behind it. -/
def CompletesAfter (h : History) (dt : Single) (name : String) (behind : List String)
    (n : Nat) : Prop :=
  (∀ k < n, (h.ticks dt (k + 1)).scheduler.isBusy = true) ∧
    (h.ticks dt (n + 1)).scheduler.Arrived (h.ticks dt (n + 1)).emitted name behind

theorem isBusy_of_walking {s : Scheduler} {name : String} {speed : Single} {behind : List String}
    {code : Nat} (walking : s.Walking name speed behind code) :
    s.isBusy = true ∧ s.queue = behind := by
  obtain ⟨slot, actor, busy, _, _, queued⟩ := walking
  exact ⟨Option.isSome_iff_exists.mpr ⟨_, busy⟩, queued⟩

variable {c : Config} {h : History} {name : String} {distance : Single} {behind : List String}

theorem Reached.stands {permitted : Single → Prop} (reached : Reached permitted c.rules h)
    (valid : c.invalid? = none) (sets : h.scheduler.SetsOff name distance behind) (n : Nat)
    (going : ∀ k < n, (Format.single.left c.stride.code)^[k + 1] distance.code ≠ 0) :
    (h.ticks (Pacer.ofPace c.pace).dt (n + 1)).Stands name c.moveSpeed behind
      ((Format.single.left c.stride.code)^[n + 1] distance.code) := by
  obtain ⟨code, bounded, strides⟩ := Config.unsigned_stride valid
  have same : c.stride.code = code := by rw [strides]; rfl
  have speed : h.scheduler.stage.rules.speed = c.moveSpeed := by rw [reached.rules_eq]; rfl
  have first := stands_tick_of_setsOff sets reached.coherent (by rw [speed]; exact strides)
  rw [speed] at first
  rw [same] at going ⊢
  exact first.ticks strides n going

theorem Reached.never_over {permitted : Single → Prop} (reached : Reached permitted c.rules h)
    (valid : c.invalid? = none) (sets : h.scheduler.SetsOff name distance behind)
    (lost : ¬ c.Covers distance) (n : Nat) :
    (h.ticks (Pacer.ofPace c.pace).dt (n + 1)).scheduler.isBusy = true ∧
      (h.ticks (Pacer.ofPace c.pace).dt (n + 1)).scheduler.queue = behind := by
  obtain ⟨line, _, read⟩ := sets.next
  have finite := Number.code_lt_infinity (Command.distance_isFinite read)
  have more (k : Nat) : (Format.single.left c.stride.code)^[k] distance.code ≠ 0 := by
    intro nothing
    apply lost
    exact (Format.left_reaches_zero_iff (by decide) finite).mp ⟨k, nothing⟩
  have stands := reached.stands valid sets n fun k _ => more (k + 1)
  rw [Stands, if_neg (more (n + 1))] at stands
  exact isBusy_of_walking stands

theorem Reached.completes {permitted : Single → Prop} (reached : Reached permitted c.rules h)
    (valid : c.invalid? = none) (sets : h.scheduler.SetsOff name distance behind)
    (covers : c.Covers distance) :
    ∃ n, h.CompletesAfter (Pacer.ofPace c.pace).dt name behind n := by
  obtain ⟨line, _, read⟩ := sets.next
  have finite := Number.code_lt_infinity (Command.distance_isFinite read)
  obtain ⟨m, nothing⟩ := (Format.left_reaches_zero_iff (by decide) finite).mpr covers
  have reaches : ∃ n, (Format.single.left c.stride.code)^[n + 1] distance.code = 0 :=
    ⟨m, by rw [Function.iterate_succ_apply', nothing, Format.left_zero]⟩
  -- the tick that completes the move is the first that leaves nothing
  refine ⟨Nat.find reaches, ?_, ?_⟩
  · intro k less
    have stands := reached.stands valid sets k fun j earlier =>
      Nat.find_min reaches (Nat.lt_trans earlier less)
    rw [Stands, if_neg (Nat.find_min reaches less)] at stands
    exact (isBusy_of_walking stands).1
  · have stands := reached.stands valid sets _ fun j earlier => Nat.find_min reaches earlier
    rw [Stands, if_pos (Nat.find_spec reaches)] at stands
    exact stands

/-- In a session with a valid configuration, a move on a bound actor completes exactly if the
session covers its distance, and otherwise is under way for good, with the lines behind it
waiting. -/
theorem move_completes_iff (valid : c.invalid? = none) (list : List Act)
    (sets : ((ofRules c.rules).acts list).scheduler.SetsOff name distance behind) :
    let h := (ofRules c.rules).acts list
    let dt := (Pacer.ofPace c.pace).dt
    ((∃ n, h.CompletesAfter dt name behind n) ↔ c.Covers distance) ∧
      (¬ c.Covers distance → ∀ n, (h.ticks dt (n + 1)).scheduler.isBusy = true ∧
        (h.ticks dt (n + 1)).scheduler.queue = behind) := by
  intro h dt
  have reached : Reached (fun _ => True) c.rules h := reached_acts c.rules list
  have forever := reached.never_over valid sets
  refine ⟨⟨?_, reached.completes valid sets⟩, forever⟩
  rintro ⟨n, _, ended, _⟩
  apply Decidable.byContradiction
  intro lost
  have busy := (forever lost n).1
  rw [Scheduler.isBusy, ended] at busy
  cases busy

/-- Two units at one unit and sixty ticks per second. -/
theorem short_move_completes :
    let c := Config.standard
    let h := (ofRules c.rules).acts
      [.submit "A=Turtle()", .tick 1, .submit "A.fd(2)", .submit "p=A.position()"]
    c.invalid? = none ∧ h.scheduler.SetsOff "A" 2 ["p=A.position()"] ∧
      ∃ n, h.CompletesAfter (Pacer.ofPace c.pace).dt "A" ["p=A.position()"] n := by
  intro c h
  have valid : c.invalid? = none := by decide +kernel
  have sets : h.scheduler.SetsOff "A" 2 ["p=A.position()"] :=
    ⟨by decide +kernel, ⟨"A.fd(2)", by decide +kernel, by decide +kernel⟩, by decide +kernel⟩
  have covers : c.Covers 2 := by decide +kernel
  exact ⟨valid, sets, (move_completes_iff valid _ sets).1.mpr covers⟩

/-- At a valid rate of more than two ticks per nanosecond a tick has no length, and even a move of a
billionth of a unit never completes; at the standard rate a move of a million units never does. -/
theorem valid_moves_never_complete :
    (let c := { Config.standard with targetRate := 4294967295 }
      let dt := (Pacer.ofPace c.pace).dt
      let h := (ofRules c.rules).acts
        [.submit "A=Turtle()", .submit "A.fd(1e-9)", .submit "p=A.position()", .tick dt]
      c.invalid? = none ∧
        h.scheduler.SetsOff "A" (Number.ofRatio false 1 (tenTo 9)) ["p=A.position()"] ∧
        ∀ n, (h.ticks dt (n + 1)).scheduler.isBusy = true) ∧
    (let c := Config.standard
      let dt := (Pacer.ofPace c.pace).dt
      let h := (ofRules c.rules).acts
        [.submit "A=Turtle()", .submit "A.fd(1000000)", .submit "p=A.position()", .tick dt]
      c.invalid? = none ∧ h.scheduler.SetsOff "A" 1000000 ["p=A.position()"] ∧
        ∀ n, (h.ticks dt (n + 1)).scheduler.isBusy = true) := by
  constructor
  · intro c dt h
    have valid : c.invalid? = none := by decide +kernel
    have sets : h.scheduler.SetsOff "A" (Number.ofRatio false 1 (tenTo 9)) ["p=A.position()"] :=
      ⟨by decide +kernel, ⟨"A.fd(1e-9)", by decide +kernel, by decide +kernel⟩, by decide +kernel⟩
    have lost : ¬ c.Covers (Number.ofRatio false 1 (tenTo 9)) := by decide +kernel
    exact ⟨valid, sets, fun n => ((reached_acts c.rules _).never_over valid sets lost n).1⟩
  · intro c dt h
    have valid : c.invalid? = none := by decide +kernel
    have sets : h.scheduler.SetsOff "A" 1000000 ["p=A.position()"] :=
      ⟨by decide +kernel, ⟨"A.fd(1000000)", by decide +kernel, by decide +kernel⟩,
        by decide +kernel⟩
    have lost : ¬ c.Covers 1000000 := by decide +kernel
    exact ⟨valid, sets, fun n => ((reached_acts c.rules _).never_over valid sets lost n).1⟩

end History
end Turtle
