import Turtle.Proofs.Grammar
import Turtle.Proofs.Slots
import Turtle.Schedule.Stage

/-! What one tick of work comes to on a stage.
A command is refused by looking at the stage alone, before anything is changed. A spawn that finds
room fills the first free slot, a step of a move refills the slot of its actor, and nothing else
touches the pool. -/
namespace Turtle

namespace Actor

variable (a : Actor) (dt : Single)

@[simp] theorem setOff_active (distance speed : Single) :
    (a.setOff distance speed).active = a.active := rfl

@[simp] theorem setOff_name (distance speed : Single) :
    (a.setOff distance speed).name = a.name := rfl

@[simp] theorem step_active : (a.step dt).1.active = a.active := by
  unfold step
  split
  · rfl
  · dsimp only
    split <;> rfl

@[simp] theorem step_name : (a.step dt).1.name = a.name := by
  unfold step
  split
  · rfl
  · dsimp only
    split <;> rfl

theorem journey_of_complete (ends : (a.step dt).2 = .complete) : (a.step dt).1.journey = none := by
  unfold step at ends ⊢
  split
  · assumption
  · rename_i journey under
    simp only [under] at ends ⊢
    split at ends
    · cases ends
    · rfl

/-- An actor whose step does not end its journey still has a part of it before it. -/
theorem journey_of_running (goesOn : (a.step dt).2 = .running) :
    ∃ journey, (a.step dt).1.journey = some journey ∧ journey.isOver = false := by
  unfold step at goesOn ⊢
  split
  · rename_i rest
    simp only [rest] at goesOn
    cases goesOn
  · rename_i journey under
    simp only [under] at goesOn ⊢
    split at goesOn
    · rename_i unfinished
      refine ⟨_, rfl, ?_⟩
      unfold Journey.status at unfinished
      split at unfinished
      · cases unfinished
      · exact Bool.eq_false_iff.mpr ‹_›
    · cases goesOn

end Actor

namespace Stage

variable {s : Stage} {dt : Single} {name : String} {slot : Slot} {actor : Actor}

/-- The outcome of a spawn that finds room. -/
def enroll (s : Stage) (name : String) : Outcome :=
  let slot := s.pool.activeCount
  let point := s.rules.spawnPoint
  ⟨{ s with
      pool := s.pool.set slot ⟨name, ⟨point, .identity⟩, true, none⟩
      actors := s.actors.bind name slot },
    [.spawned name slot point, .idling name slot], none⟩

theorem get?_enroll (room : s.pool.activeCount < s.pool.capacity) (name : String) :
    (s.enroll name).stage.pool.get? s.pool.activeCount
      = some ⟨name, ⟨s.rules.spawnPoint, .identity⟩, true, none⟩ :=
  Pool.get?_set_self room rfl

theorem find?_enroll (s : Stage) (name : String) :
    (s.enroll name).stage.actors.find? name = some s.pool.activeCount :=
  (Bindings.find?_bind _ _ _ _).trans (if_pos rfl)

def stepped (s : Stage) (move : Underway) (actor : Actor) : Status → Outcome
  | .running =>
    ⟨{ s with pool := s.pool.set move.slot actor }, [.moveStepped move.name actor.position],
      some move⟩
  | .complete =>
    ⟨{ s with pool := s.pool.set move.slot actor }, [.moveCompleted move.name actor.position],
      none⟩

@[simp] theorem stage_stepped (s : Stage) (move : Underway) (actor : Actor) (status : Status) :
    (s.stepped move actor status).stage = { s with pool := s.pool.set move.slot actor } := by
  cases status <;> rfl

def depart (s : Stage) (dt : Single) (move : Underway) (distance : Single) (actor : Actor) :
    Outcome :=
  let (after, status) := (actor.setOff distance s.rules.speed).step dt
  let outcome := s.stepped move after status
  { outcome with events := .moveStarted move.name distance :: outcome.events }

@[simp] theorem stage_depart (s : Stage) (dt : Single) (move : Underway) (distance : Single)
    (actor : Actor) :
    (s.depart dt move distance actor).stage = { s with
      pool := s.pool.set move.slot ((actor.setOff distance s.rules.speed).step dt).1 } :=
  stage_stepped _ _ _ _

theorem depart_of_running {move : Underway} {distance : Single}
    (goesOn : ((actor.setOff distance s.rules.speed).step dt).2 = .running) :
    s.depart dt move distance actor =
      let after := ((actor.setOff distance s.rules.speed).step dt).1
      ⟨{ s with pool := s.pool.set move.slot after },
        [.moveStarted move.name distance, .moveStepped move.name after.position], some move⟩ := by
  unfold depart
  dsimp only
  rw [goesOn]
  rfl

theorem depart_of_complete {move : Underway} {distance : Single}
    (ends : ((actor.setOff distance s.rules.speed).step dt).2 = .complete) :
    s.depart dt move distance actor =
      let after := ((actor.setOff distance s.rules.speed).step dt).1
      ⟨{ s with pool := s.pool.set move.slot after },
        [.moveStarted move.name distance, .moveCompleted move.name after.position], none⟩ := by
  unfold depart
  dsimp only
  rw [ends]
  rfl

theorem resume_of_get? {move : Underway} (found : s.pool.get? move.slot = some actor) :
    s.resume dt move = s.stepped move (actor.step dt).1 (actor.step dt).2 := by
  unfold resume
  rw [found]
  dsimp only
  cases (actor.step dt).2 <;> rfl

theorem active_step (found : s.pool.get? slot = some actor) (dt : Single) :
    (actor.step dt).1.active = true := by
  rw [Actor.step_active]
  exact Pool.active_of_get? found

theorem active_setOff (found : s.pool.get? slot = some actor) (distance speed : Single) :
    (actor.setOff distance speed).active = true := by
  rw [Actor.setOff_active]
  exact Pool.active_of_get? found

theorem active_step_setOff (found : s.pool.get? slot = some actor) (distance speed dt : Single) :
    ((actor.setOff distance speed).step dt).1.active = true := by
  rw [Actor.step_active]
  exact active_setOff found distance speed

theorem slotOf?_of_get? (bound : s.actors.find? name = some slot)
    (found : s.pool.get? slot = some actor) : s.slotOf? name = some slot := by
  unfold slotOf?
  rw [bound]
  exact Option.filter_some_pos (by rw [found]; rfl)

theorem slotOf?_of_unbound (unbound : s.actors.find? name = none) : s.slotOf? name = none := by
  unfold slotOf?
  rw [unbound]
  rfl

theorem move_of_get? (bound : s.actors.find? name = some slot)
    (found : s.pool.get? slot = some actor) (distance : Single) :
    s.move dt name distance = s.depart dt ⟨slot, name⟩ distance actor := by
  have within := Pool.lt_capacity_of_get? found
  have placed : (s.pool.set slot (actor.setOff distance s.rules.speed)).get? slot
      = some (actor.setOff distance s.rules.speed) :=
    Pool.get?_set_self within (active_setOff found _ _)
  unfold move depart
  simp only [slotOf?_of_get? bound found, Pool.update_of_get? found]
  rw [resume_of_get? (by exact placed)]
  generalize (actor.setOff distance s.rules.speed).step dt = after
  obtain ⟨after, status⟩ := after
  cases status <;> simp only [stepped, Pool.set_set]

theorem spawn_of_room (packed : s.pool.Packed) (room : s.pool.activeCount < s.pool.capacity)
    (name : String) : s.spawn name = s.enroll name := by
  unfold spawn
  split
  · rename_i none
    have full := Pool.acquire?_eq_none_iff_full.mp none
    exact absurd full (Nat.ne_of_lt room)
  · rename_i slot pool taken
    obtain ⟨rfl, _, _⟩ := packed.slot_of_acquire? taken
    simp only [Pool.update_acquired taken, enroll]

theorem spawn_of_full (full : s.pool.activeCount = s.pool.capacity) (name : String) :
    s.spawn name = s.fail (.poolExhausted name s.pool.capacity) := by
  unfold spawn
  rw [Pool.acquire?_eq_none_iff_full.mpr full]

theorem query_of_get? (bound : s.actors.find? name = some slot)
    (found : s.pool.get? slot = some actor) (into : String) :
    s.query into name = ⟨{ s with positions := s.positions.bind into actor.position },
      [.readBack into actor.position], none⟩ := by
  simp only [query, position, bound, Option.bind_some, found]

theorem query_of_unbound (unbound : s.actors.find? name = none) (into : String) :
    s.query into name = s.fail (.unknownActor name) := by
  simp only [query, position, unbound, Option.bind_none]

theorem move_of_unbound (unbound : s.actors.find? name = none) (distance : Single) :
    s.move dt name distance = s.fail (.unknownActor name) := by
  simp only [move, slotOf?_of_unbound unbound]

def Bound (s : Stage) : Prop :=
  ∀ name slot, s.actors.find? name = some slot → (s.pool.get? slot).isSome

/-- The commands that a stage refuses, each with its failure. -/
inductive Refuses (s : Stage) : Command → Failure → Prop where
  | full (name : String) :
      s.pool.activeCount = s.pool.capacity →
      Refuses s (.spawn name) (.poolExhausted name s.pool.capacity)
  | unread (into actor : String) :
      s.actors.find? actor = none → Refuses s (.query into actor) (.unknownActor actor)
  | unmoved (actor : String) (distance : Single) :
      s.actors.find? actor = none → Refuses s (.move actor distance) (.unknownActor actor)
  | stranger (actor operand : String) :
      s.actors.find? actor = none → Refuses s (.malformedMove actor operand) (.unknownActor actor)
  | operand (actor operand : String) :
      (s.actors.find? actor).isSome →
      Refuses s (.malformedMove actor operand) (.invalidDistance actor operand)
  | unrecognized (line : String) : Refuses s (.unrecognized line) (.unrecognized line)

variable {c : Command} {failure : Failure}

theorem Bound.slotOf? (bound : s.Bound) (name : String) : s.slotOf? name = s.actors.find? name := by
  cases found : s.actors.find? name with
  | none => exact slotOf?_of_unbound found
  | some slot =>
    obtain ⟨actor, held⟩ := Option.isSome_iff_exists.mp (bound name slot found)
    exact slotOf?_of_get? found held

theorem Refuses.perform_eq (bound : s.Bound) (refuses : s.Refuses c failure) (dt : Single) :
    s.perform dt c = s.fail failure := by
  cases refuses with
  | full name full => exact spawn_of_full full name
  | unread into actor unbound => exact query_of_unbound unbound into
  | unmoved actor distance unbound => exact move_of_unbound unbound distance
  | stranger actor operand unbound => simp only [perform, rejectMove, bound.slotOf?, unbound]
  | operand actor operand known =>
    obtain ⟨slot, found⟩ := Option.isSome_iff_exists.mp known
    simp only [perform, rejectMove, bound.slotOf?, found]
  | unrecognized line => rfl

/-- What the first tick of a command comes to. -/
inductive Performs (s : Stage) (dt : Single) : Command → Outcome → Prop where
  | refused {c : Command} (failure : Failure) : s.Refuses c failure → Performs s dt c (s.fail failure)
  | enrolled (name : String) :
      s.pool.activeCount < s.pool.capacity → Performs s dt (.spawn name) (s.enroll name)
  | answered (into name : String) (slot : Slot) (actor : Actor) :
      s.actors.find? name = some slot → s.pool.get? slot = some actor →
      Performs s dt (.query into name)
        ⟨{ s with positions := s.positions.bind into actor.position },
          [.readBack into actor.position], none⟩
  | departed (name : String) (distance : Single) (slot : Slot) (actor : Actor) :
      s.actors.find? name = some slot → s.pool.get? slot = some actor →
      Performs s dt (.move name distance) (s.depart dt ⟨slot, name⟩ distance actor)

/-- Where names are bound to actors in use and the slots are packed, a command that is not refused
finds what it needs. -/
theorem performs (packed : s.pool.Packed) (bound : s.Bound) (dt : Single) (c : Command) :
    s.Performs dt c (s.perform dt c) := by
  have refused {c : Command} {failure : Failure} (refuses : s.Refuses c failure) :
      s.Performs dt c (s.perform dt c) := by
    rw [refuses.perform_eq bound dt]
    exact .refused failure refuses
  cases c with
  | spawn name =>
    rcases s.pool.room_or_full with room | full
    · rw [perform, spawn_of_room packed room]
      exact .enrolled name room
    · exact refused (.full name full)
  | query into name =>
    cases found : s.actors.find? name with
    | none => exact refused (.unread into name found)
    | some slot =>
      obtain ⟨actor, held⟩ := Option.isSome_iff_exists.mp (bound name slot found)
      rw [perform, query_of_get? found held]
      exact .answered into name slot actor found held
  | move name distance =>
    cases found : s.actors.find? name with
    | none => exact refused (.unmoved name distance found)
    | some slot =>
      obtain ⟨actor, held⟩ := Option.isSome_iff_exists.mp (bound name slot found)
      rw [perform, move_of_get? found held]
      exact .departed name distance slot actor found held
  | malformedMove name operand =>
    cases found : s.actors.find? name with
    | none => exact refused (.stranger name operand found)
    | some slot => exact refused (.operand name operand (by rw [found]; rfl))
  | unrecognized line => exact refused (.unrecognized line)

/-- What one tick of work can come to, given the move under way before it. -/
inductive Work (s : Stage) (dt : Single) : Option Underway → Outcome → Prop where
  | refused (failure : Failure) :
      (∀ name capacity, failure ≠ .poolExhausted name capacity) → Work s dt none (s.fail failure)
  | exhausted (name : String) :
      s.pool.activeCount = s.pool.capacity →
      Work s dt none (s.fail (.poolExhausted name s.pool.capacity))
  | spawned (name : String) :
      name ≠ "" → s.pool.activeCount < s.pool.capacity → Work s dt none (s.enroll name)
  | answered (into name : String) (slot : Slot) (actor : Actor) :
      s.actors.find? name = some slot → s.pool.get? slot = some actor →
      Work s dt none ⟨{ s with positions := s.positions.bind into actor.position },
        [.readBack into actor.position], none⟩
  | departed (move : Underway) (distance : Single) (actor : Actor) :
      s.actors.find? move.name = some move.slot → s.pool.get? move.slot = some actor →
      Work s dt none (s.depart dt move distance actor)
  | resumed (move : Underway) (actor : Actor) :
      s.actors.find? move.name = some move.slot → s.pool.get? move.slot = some actor →
      Work s dt (some move) (s.stepped move (actor.step dt).1 (actor.step dt).2)

theorem rules_work {underway : Option Underway} {outcome : Outcome}
    (works : s.Work dt underway outcome) : outcome.stage.rules = s.rules := by
  cases works with
  | refused failure _ => rfl
  | exhausted name _ => rfl
  | spawned name _ _ => rfl
  | answered into name slot actor _ _ => rfl
  | departed move distance actor _ _ => rw [stage_depart]
  | resumed move actor _ _ => rw [stage_stepped]

theorem capacity_work {underway : Option Underway} {outcome : Outcome}
    (works : s.Work dt underway outcome) : outcome.stage.pool.capacity = s.pool.capacity := by
  cases works with
  | refused failure _ => rfl
  | exhausted name _ => rfl
  | spawned name _ _ => exact Pool.capacity_set _ _ _
  | answered into name slot actor _ _ => rfl
  | departed move distance actor _ _ =>
    rw [stage_depart]
    exact Pool.capacity_set _ _ _
  | resumed move actor _ _ =>
    rw [stage_stepped]
    exact Pool.capacity_set _ _ _

/-- The first tick of a line is such work. -/
theorem work_of_line (packed : s.pool.Packed) (bound : s.Bound) (line : String) :
    s.Work dt none (s.perform dt (.ofLine line)) := by
  have performs := performs packed bound dt (.ofLine line)
  generalize s.perform dt (.ofLine line) = outcome at performs ⊢
  generalize read : Command.ofLine line = c at performs
  cases performs with
  | refused failure refuses =>
    cases refuses with
    | full name full => exact .exhausted name full
    | unread into name unbound => exact .refused _ fun _ _ => Failure.noConfusion
    | unmoved name distance unbound => exact .refused _ fun _ _ => Failure.noConfusion
    | stranger name operand unbound => exact .refused _ fun _ _ => Failure.noConfusion
    | operand name operand known => exact .refused _ fun _ _ => Failure.noConfusion
    | unrecognized text => exact .refused _ fun _ _ => Failure.noConfusion
  | enrolled name room => exact .spawned name (Command.name_ne_empty read) room
  | answered into name slot actor named held => exact .answered into name slot actor named held
  | departed name distance slot actor named held =>
    exact .departed ⟨slot, name⟩ distance actor named held

theorem work_of_move {move : Underway} (bound : s.actors.find? move.name = some move.slot)
    (found : s.pool.get? move.slot = some actor) :
    s.Work dt (some move) (s.resume dt move) := by
  rw [resume_of_get? found]
  exact .resumed move actor bound found

end Stage
end Turtle
