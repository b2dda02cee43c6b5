import Turtle.Proofs.History
import Turtle.Proofs.Outcomes

/-! The pool, the bindings, the journeys and the move under way agree, in every state that a
scheduler can be driven to.
The slots in use come first; a name is bound to the newest actor that carries it; and an actor is on
a journey only if the move under way is its own. So a slot found through a name or through the move
under way is always in use. -/
namespace Turtle

namespace Pool

variable {p : Pool} {slot : Slot} {a : Actor}

def nameOf? (p : Pool) (slot : Slot) : Option String := (p.get? slot).map Actor.name

/-- A slot is the last one in use by an actor of that name. -/
def Newest (p : Pool) (name : String) (slot : Slot) : Prop :=
  p.nameOf? slot = some name ∧ ∀ other, p.nameOf? other = some name → other ≤ slot

theorem nameOf?_of_get? (found : p.get? slot = some a) : p.nameOf? slot = some a.name := by
  unfold nameOf?
  rw [found]
  rfl

theorem nameOf?_set (within : slot < p.capacity) (active : a.active = true) (other : Slot) :
    (p.set slot a).nameOf? other = if other = slot then some a.name else p.nameOf? other := by
  unfold nameOf?
  rw [get?_set within active]
  split <;> rfl

theorem nameOf?_refill {b : Actor} (found : p.get? slot = some a) (active : b.active = true)
    (same : b.name = a.name) : (p.set slot b).nameOf? = p.nameOf? := by
  funext other
  rw [nameOf?_set (lt_capacity_of_get? found) active]
  by_cases hit : other = slot
  · rw [if_pos hit, hit, nameOf?_of_get? found, same]
  · rw [if_neg hit]

theorem Packed.lt_of_nameOf? (packed : p.Packed) {name : String}
    (found : p.nameOf? slot = some name) : slot < p.activeCount := by
  obtain ⟨actor, held, _⟩ := Option.map_eq_some_iff.mp found
  exact (packed slot).mp (by rw [held]; rfl)

end Pool

namespace Stage

/-- The parts of a stage agree with each other and with the move under way. -/
structure Coherent (s : Stage) (underway : Option Underway) : Prop where
  capacity : s.pool.capacity = s.rules.capacity
  packed : s.pool.Packed
  named : ∀ slot name, s.pool.nameOf? slot = some name → name ≠ ""
  bound : ∀ slot name, s.pool.nameOf? slot = some name → (s.actors.find? name).isSome
  newest : ∀ name slot, s.actors.find? name = some slot → s.pool.Newest name slot
  moving : ∀ slot actor, s.pool.slots[slot]? = some actor → actor.journey ≠ none →
    ∃ move, underway = some move ∧ move.slot = slot
  resumes : ∀ move, underway = some move → s.actors.find? move.name = some move.slot ∧
    ∃ actor journey, s.pool.get? move.slot = some actor ∧ actor.journey = some journey ∧
      journey.isOver = false

variable {s : Stage} {underway : Option Underway}

theorem coherent_ofRules (rules : Rules) : (ofRules rules).Coherent none := by
  have blank : ∀ slot name, (ofRules rules).pool.nameOf? slot ≠ some name := by
    intro slot name found
    have used := (Pool.packed_ofCapacity rules.capacity).lt_of_nameOf? found
    simp at used
  constructor
  · exact Pool.capacity_ofCapacity rules.capacity
  · exact Pool.packed_ofCapacity rules.capacity
  · intro slot name found
    exact absurd found (blank slot name)
  · intro slot name found
    exact absurd found (blank slot name)
  · intro name slot found
    cases found
  · intro slot actor here moving
    have rest := List.eq_of_mem_replicate (List.mem_of_getElem? here)
    exact absurd (by rw [rest]; rfl) moving
  · intro move impossible
    cases impossible

namespace Coherent

theorem boundInUse (coherent : s.Coherent underway) : s.Bound := by
  intro name slot found
  obtain ⟨actor, held, _⟩ := Option.map_eq_some_iff.mp (coherent.newest name slot found).1
  rw [held]
  rfl

/-- Two names are never bound to one slot. -/
theorem distinct (coherent : s.Coherent underway) {name other : String} {slot : Slot}
    (one : s.actors.find? name = some slot) (another : s.actors.find? other = some slot) :
    name = other := by
  have first := (coherent.newest name slot one).1
  have second := (coherent.newest other slot another).1
  exact Option.some.inj (first.symm.trans second)

theorem atRest (coherent : s.Coherent none) {slot : Slot} {actor : Actor}
    (here : s.pool.slots[slot]? = some actor) : actor.journey = none := by
  apply Decidable.byContradiction
  intro moving
  obtain ⟨move, impossible, _⟩ := coherent.moving slot actor here moving
  cases impossible

/-- A new actor takes over its name from every older one. -/
theorem enroll (coherent : s.Coherent none) {name : String} (proper : name ≠ "")
    (room : s.pool.activeCount < s.pool.capacity) :
    (s.enroll name).stage.Coherent (s.enroll name).underway := by
  have names := Pool.nameOf?_set (p := s.pool) room
    (a := ⟨name, ⟨s.rules.spawnPoint, .identity⟩, true, none⟩) rfl
  constructor
  · exact (Pool.capacity_set _ _ _).trans coherent.capacity
  · exact coherent.packed.set room rfl (Nat.le_refl _)
  · intro slot other found
    rw [Stage.enroll, names] at found
    split at found
    · cases found
      exact proper
    · exact coherent.named slot other found
  · intro slot other found
    rw [Stage.enroll, names] at found
    rw [Stage.enroll, Bindings.find?_bind]
    split at found
    · cases found
      rw [if_pos rfl]
      rfl
    · split
      · rfl
      · exact coherent.bound slot other found
  · intro other slot found
    rw [Stage.enroll, Bindings.find?_bind] at found
    rw [Stage.enroll, Pool.Newest, names]
    simp only [names]
    split at found
    · rename_i same
      cases found
      constructor
      · rw [if_pos rfl, same]
      · intro older carries
        split at carries
        · exact Nat.le_of_eq ‹_›
        · exact Nat.le_of_lt (coherent.packed.lt_of_nameOf? carries)
    · rename_i different
      have before := coherent.newest other slot found
      have older := Nat.ne_of_lt (coherent.packed.lt_of_nameOf? before.1)
      constructor
      · rw [if_neg older]
        exact before.1
      · intro older carries
        split at carries
        · exact absurd (Option.some.inj carries).symm different
        · exact before.2 older carries
  · intro slot actor here moving
    rw [Stage.enroll, Pool.getElem?_set room] at here
    split at here
    · cases here
      exact absurd rfl moving
    · exact absurd (coherent.atRest here) moving
  · intro move impossible
    cases impossible

/-- Only the actor of the move is replaced, by itself one step further. -/
theorem stepped (coherent : s.Coherent underway) {move : Underway} (actor : Actor) (dt : Single)
    (alone : ∀ slot other, s.pool.slots[slot]? = some other → other.journey ≠ none →
      slot = move.slot)
    (bound : s.actors.find? move.name = some move.slot) {before : Actor}
    (found : s.pool.get? move.slot = some before) (same : actor.name = before.name)
    (active : actor.active = true) :
    let outcome := s.stepped move (actor.step dt).1 (actor.step dt).2
    outcome.stage.Coherent outcome.underway := by
  have within := Pool.lt_capacity_of_get? found
  have stays : (actor.step dt).1.active = true := (Actor.step_active actor dt).trans active
  have names := Pool.nameOf?_refill found stays ((Actor.step_name actor dt).trans same)
  have used := (coherent.packed move.slot).mp (by rw [found]; rfl)
  have filled := Pool.get?_set_self within stays
  constructor
  · rw [stage_stepped]
    exact (Pool.capacity_set _ _ _).trans coherent.capacity
  · rw [stage_stepped]
    exact coherent.packed.set within stays (Nat.le_of_lt used)
  · simp only [stage_stepped, names]
    exact coherent.named
  · simp only [stage_stepped, names]
    exact coherent.bound
  · simp only [stage_stepped, Pool.Newest, names]
    exact coherent.newest
  · intro slot other here moving
    rw [stage_stepped, Pool.getElem?_set within] at here
    split at here
    · rename_i same
      cases here
      cases status : (actor.step dt).2 with
      | running => exact ⟨move, rfl, same.symm⟩
      | complete => exact absurd (Actor.journey_of_complete actor dt status) moving
    · exact absurd (alone slot other here moving) ‹_›
  · intro later goesOn
    cases status : (actor.step dt).2 with
    | running =>
      rw [status] at goesOn
      cases goesOn
      obtain ⟨journey, under, unfinished⟩ := Actor.journey_of_running actor dt status
      exact ⟨bound, _, journey, filled, under, unfinished⟩
    | complete =>
      rw [status] at goesOn
      cases goesOn

theorem work (coherent : s.Coherent underway) {dt : Single} {outcome : Outcome}
    (works : s.Work dt underway outcome) : outcome.stage.Coherent outcome.underway := by
  cases works with
  | refused failure _ => exact coherent
  | exhausted name _ => exact coherent
  | spawned name proper room => exact coherent.enroll proper room
  | answered into name slot actor bound found => exact { coherent with }
  | departed move distance actor bound found =>
    refine coherent.stepped (actor.setOff distance s.rules.speed) dt ?_ bound found rfl
      (active_setOff found _ _)
    intro slot other here moving
    exact absurd (coherent.atRest here) moving
  | resumed move actor bound found =>
    refine coherent.stepped actor dt ?_ bound found rfl (Pool.active_of_get? found)
    intro slot other here moving
    obtain ⟨same, under, place⟩ := coherent.moving slot other here moving
    cases under
    exact place.symm

end Coherent
end Stage

namespace Scheduler

def Coherent (s : Scheduler) : Prop := s.stage.Coherent s.underway

/-- A tick does nothing when idle, and otherwise some work on the stage. -/
theorem Coherent.tick_cases {s : Scheduler} (coherent : s.Coherent) (dt : Single) :
    (s.isIdle = true ∧ s.tick dt = s ∧ s.emits dt = []) ∨
    ∃ outcome, s.stage.Work dt s.underway outcome ∧
      s.tick dt = { s with queue := s.waiting }.conclude outcome ∧
      s.emits dt = outcome.events := by
  unfold Coherent at coherent
  obtain ⟨stage, queue, underway, outbox, completed⟩ := s
  cases underway with
  | some move =>
    obtain ⟨bound, actor, _, found, _, _⟩ := coherent.resumes move rfl
    exact .inr ⟨_, Stage.work_of_move bound found, rfl, rfl⟩
  | none =>
    cases queue with
    | nil => exact .inl ⟨rfl, rfl, rfl⟩
    | cons line rest =>
      exact .inr ⟨_, Stage.work_of_line coherent.packed coherent.boundInUse line, rfl, rfl⟩

theorem Coherent.tick {s : Scheduler} (coherent : s.Coherent) (dt : Single) :
    (s.tick dt).Coherent := by
  rcases coherent.tick_cases dt with ⟨_, same, _⟩ | ⟨outcome, works, next, _⟩
  · rw [same]
    exact coherent
  · rw [next]
    exact Stage.Coherent.work coherent works

end Scheduler

namespace History

variable {permitted : Single → Prop} {rules : Rules} {h : History}

theorem Reached.coherent (reached : Reached permitted rules h) : h.scheduler.Coherent := by
  induction reached with
  | start => exact Stage.coherent_ofRules rules
  | @submit h line _ ih =>
    rw [h.submit_eq]
    exact ih
  | tick dt _ _ ih => exact ih.tick dt
  | drain _ ih => exact ih

/-- What holds at the start and is kept by every tick of work, of the stage, the move under way and
the events so far, holds of every history. -/
theorem Reached.keeps {P : Stage → Option Underway → List Event → Prop}
    (reached : Reached permitted rules h) (start : P (.ofRules rules) none [])
    (work : ∀ (s : Stage) (underway : Option Underway) (told : List Event) (dt : Single)
      (outcome : Outcome), s.Coherent underway → permitted dt → s.Work dt underway outcome →
      P s underway told → P outcome.stage outcome.underway (told ++ outcome.events)) :
    P h.scheduler.stage h.scheduler.underway h.emitted := by
  induction reached with
  | start => exact start
  | @submit h line _ ih =>
    rw [h.submit_eq]
    exact ih
  | @tick h dt earlier allowed ih =>
    unfold History.tick
    rcases earlier.coherent.tick_cases dt with ⟨_, same, silent⟩ | ⟨outcome, works, next, emitted⟩
    · rw [same, silent, List.append_nil]
      exact ih
    · rw [next, emitted]
      exact work _ _ _ dt outcome earlier.coherent allowed works ih
  | drain _ ih => exact ih

theorem Reached.rules_eq (reached : Reached permitted rules h) :
    h.scheduler.stage.rules = rules := by
  apply reached.keeps (P := fun s _ _ => s.rules = rules)
  · rfl
  · intro s underway told dt outcome _ _ works same
    exact (Stage.rules_work works).trans same

end History

namespace Scheduler

/-- The order that a scheduler with given rules keeps among its slots, names and journeys. -/
structure InOrder (rules : Rules) (s : Scheduler) : Prop where
  capacity : s.stage.pool.capacity = rules.capacity
  packed : ∀ slot, (s.stage.pool.get? slot).isSome ↔ slot < s.stage.pool.activeCount
  named : ∀ name slot, s.stage.actors.find? name = some slot → name ≠ ""
  newest : ∀ name slot, s.stage.actors.find? name = some slot → s.stage.pool.Newest name slot
  distinct : ∀ name other slot, s.stage.actors.find? name = some slot →
    s.stage.actors.find? other = some slot → name = other
  bound : ∀ slot actor, s.stage.pool.get? slot = some actor →
    ∃ newest, s.stage.actors.find? actor.name = some newest
  own : ∀ move, s.underway = some move → s.stage.actors.find? move.name = some move.slot
  unfinished : ∀ move, s.underway = some move → ∃ actor journey,
    s.stage.pool.get? move.slot = some actor ∧ actor.journey = some journey ∧
      journey.isOver = false
  alone : ∀ move, s.underway = some move → ∀ slot actor,
    s.stage.pool.slots[slot]? = some actor → actor.journey ≠ none → slot = move.slot
  atRest : s.underway = none → ∀ actor ∈ s.stage.pool.slots, actor.journey = none

/-- No look-up finds the slot of a bound name or of the move under way out of use. -/
structure Backed (s : Scheduler) : Prop where
  position : ∀ name slot, s.stage.actors.find? name = some slot →
    ∃ place, s.stage.position name = .ok place
  resolve : ∀ name slot, s.stage.actors.find? name = some slot →
    s.stage.slotOf? name = some slot
  depart : ∀ name slot distance, s.stage.actors.find? name = some slot →
    ((s.stage.pool.update slot fun actor =>
      actor.setOff distance s.stage.rules.speed).get? slot).isSome
  resume : ∀ move, s.underway = some move → (s.stage.pool.get? move.slot).isSome

theorem Coherent.inOrder {s : Scheduler} (coherent : s.Coherent) : s.InOrder s.stage.rules where
  capacity := Stage.Coherent.capacity coherent
  packed := Stage.Coherent.packed coherent
  named name slot found :=
    Stage.Coherent.named coherent slot name (Stage.Coherent.newest coherent name slot found).1
  newest := Stage.Coherent.newest coherent
  distinct name other slot one another := Stage.Coherent.distinct coherent one another
  bound slot actor found := by
    have carries := Pool.nameOf?_of_get? found
    exact Option.isSome_iff_exists.mp (Stage.Coherent.bound coherent slot actor.name carries)
  own move busy := (Stage.Coherent.resumes coherent move busy).1
  unfinished move busy := (Stage.Coherent.resumes coherent move busy).2
  alone move busy slot actor here moving := by
    obtain ⟨same, under, place⟩ := Stage.Coherent.moving coherent slot actor here moving
    cases under.symm.trans busy
    exact place.symm
  atRest idle actor member := by
    obtain ⟨slot, here⟩ := List.getElem?_of_mem member
    unfold Coherent at coherent
    rw [idle] at coherent
    exact coherent.atRest here

theorem Coherent.backed {s : Scheduler} (coherent : s.Coherent) : s.Backed where
  position name slot bound := by
    obtain ⟨actor, held⟩ :=
      Option.isSome_iff_exists.mp (Stage.Coherent.boundInUse coherent name slot bound)
    exact ⟨actor.position, by simp only [Stage.position, bound, Option.bind_some, held]⟩
  resolve name slot bound := by
    obtain ⟨actor, held⟩ :=
      Option.isSome_iff_exists.mp (Stage.Coherent.boundInUse coherent name slot bound)
    exact Stage.slotOf?_of_get? bound held
  depart name slot distance bound := by
    obtain ⟨actor, held⟩ :=
      Option.isSome_iff_exists.mp (Stage.Coherent.boundInUse coherent name slot bound)
    have active := Stage.active_setOff held distance s.stage.rules.speed
    rw [Pool.update_of_get? held, Pool.get?_set_self (Pool.lt_capacity_of_get? held) active]
    rfl
  resume move busy := by
    obtain ⟨actor, _, held, _⟩ := (Stage.Coherent.resumes coherent move busy).2
    rw [held]
    rfl

theorem coherent_acts (rules : Rules) (list : List Act) : ((ofRules rules).acts list).Coherent := by
  have reached := (History.reached_acts rules list).coherent
  rw [History.scheduler_acts] at reached
  exact reached

/-- However a scheduler is driven, its slots, names and journeys stay in order, and no slot that is
looked up through a name or through the move under way is out of use. -/
theorem inOrder_of_acts (rules : Rules) (list : List Act) :
    ((ofRules rules).acts list).InOrder rules ∧ ((ofRules rules).acts list).Backed := by
  have reached := History.reached_acts rules list
  have order := reached.coherent.inOrder
  have backed := reached.coherent.backed
  rw [reached.rules_eq] at order
  rw [History.scheduler_acts] at order backed
  exact ⟨order, backed⟩

end Scheduler
end Turtle
