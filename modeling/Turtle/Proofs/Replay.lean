import Turtle.Proofs.Coherence

/-! The events of a run tell everything that can be seen of the scheduler.
A picture is what an onlooker knows who has only the events; replaying all of them gives the picture
of the scheduler itself. -/
namespace Turtle

/-- Who is where, which name leads to which slot, what the variables hold, and whether a move is
going on. -/
@[ext] structure Picture where
  slots : Slot → Option (String × Vec)
  actors : String → Option Slot
  positions : String → Option Vec
  busy : Bool

namespace Picture

def blank : Picture := ⟨fun _ => none, fun _ => none, fun _ => none, false⟩

def relocate (p : Picture) (name : String) (position : Vec) : Picture :=
  match p.actors name with
  | none => p
  | some slot =>
    { p with
      slots := fun other =>
        if other = slot then (p.slots other).map fun held => (held.1, position)
        else p.slots other }

/-- What one event tells. -/
def after (p : Picture) : Event → Picture
  | .spawned name slot position =>
    { p with
      slots := fun other => if other = slot then some (name, position) else p.slots other
      actors := fun other => if other = name then some slot else p.actors other }
  | .idling _ _ => p
  | .moveStarted _ _ => { p with busy := true }
  | .moveStepped name position => p.relocate name position
  | .moveCompleted name position => { p.relocate name position with busy := false }
  | .readBack into position =>
    { p with positions := fun other => if other = into then some position else p.positions other }
  | .failed _ => p

def replay (events : List Event) : Picture := events.foldl after blank

theorem replay_append (events more : List Event) :
    replay (events ++ more) = more.foldl after (replay events) := List.foldl_append

end Picture

def Stage.picture (s : Stage) (busy : Bool) : Picture where
  slots slot := (s.pool.get? slot).map fun actor => (actor.name, actor.position)
  actors := s.actors.find?
  positions := s.positions.find?
  busy := busy

def Scheduler.picture (s : Scheduler) : Picture := s.stage.picture s.isBusy

namespace Stage

variable {s : Stage} {dt : Single}

theorem picture_enroll (room : s.pool.activeCount < s.pool.capacity) (name : String) :
    (s.enroll name).events.foldl Picture.after (s.picture false)
      = (s.enroll name).stage.picture false := by
  have filled := Pool.get?_set (p := s.pool) room
    (a := ⟨name, ⟨s.rules.spawnPoint, .identity⟩, true, none⟩) rfl
  refine Picture.ext ?_ ?_ rfl rfl
  · funext slot
    simp only [enroll, List.foldl_cons, List.foldl_nil, Picture.after, picture, filled]
    split <;> rfl
  · funext other
    exact (Bindings.find?_bind _ _ _ _).symm

theorem picture_stepped {move : Underway} {before actor : Actor} (status : Status)
    (bound : s.actors.find? move.name = some move.slot)
    (found : s.pool.get? move.slot = some before) (same : actor.name = before.name)
    (active : actor.active = true) :
    let outcome := s.stepped move actor status
    outcome.events.foldl Picture.after (s.picture true)
      = outcome.stage.picture outcome.underway.isSome := by
  have filled := Pool.get?_set (Pool.lt_capacity_of_get? found) active
  have moved : (s.picture true).relocate move.name actor.position
      = { s with pool := s.pool.set move.slot actor }.picture true := by
    simp only [Picture.relocate, picture, bound]
    refine Picture.ext ?_ rfl rfl rfl
    funext slot
    dsimp only
    rw [filled]
    by_cases hit : slot = move.slot
    · rw [if_pos hit, if_pos hit, hit, found, Option.map_some, Option.map_some, Option.map_some,
        same]
    · rw [if_neg hit, if_neg hit]
  cases status with
  | running => exact moved
  | complete =>
    simp only [stepped, List.foldl_cons, List.foldl_nil, Picture.after, moved]
    rfl

/-- The events of a tick of work turn the picture before it into the picture after it. -/
theorem picture_work {underway : Option Underway} {outcome : Outcome}
    (works : s.Work dt underway outcome) :
    outcome.events.foldl Picture.after (s.picture underway.isSome)
      = outcome.stage.picture outcome.underway.isSome := by
  cases works with
  | refused failure _ => rfl
  | exhausted name _ => rfl
  | spawned name _ room => exact picture_enroll room name
  | answered into name slot actor bound found =>
    refine Picture.ext rfl rfl ?_ rfl
    funext other
    exact (Bindings.find?_bind _ _ _ _).symm
  | departed move distance actor bound found =>
    exact picture_stepped _ bound found
      ((Actor.step_name _ dt).trans (Actor.setOff_name actor _ _))
      (active_step_setOff found _ _ dt)
  | resumed move actor bound found =>
    exact picture_stepped _ bound found (Actor.step_name actor dt)
      (active_step found dt)

end Stage

def Event.spawnedIn? : Event → Option Slot
  | spawned _ slot _ => some slot
  | _ => none

def Event.isExhaustion : Event → Bool
  | failed (.poolExhausted _ _) => true
  | _ => false

namespace Stage

variable {s : Stage} {dt : Single} {underway : Option Underway} {outcome : Outcome}

def Full (s : Stage) : Prop := s.pool.activeCount = s.pool.capacity

theorem spawnedIn?_stepped (move : Underway) (actor : Actor) (status : Status) :
    ∀ event ∈ (s.stepped move actor status).events,
      event.spawnedIn? = none ∧ event.isExhaustion = false := by
  cases status <;> exact List.forall_mem_singleton.mpr ⟨rfl, rfl⟩

theorem spawnedIn?_depart (move : Underway) (distance : Single) (actor : Actor) :
    ∀ event ∈ (s.depart dt move distance actor).events,
      event.spawnedIn? = none ∧ event.isExhaustion = false :=
  List.forall_mem_cons.mpr ⟨⟨rfl, rfl⟩, spawnedIn?_stepped _ _ _⟩

/-- A tick of work spawns nobody and leaves the number of slots in use, or spawns one actor, in the
slot of that number. -/
theorem activeCount_work (packed : s.pool.Packed) (works : s.Work dt underway outcome) :
    (outcome.stage.pool.activeCount = s.pool.activeCount ∧
      ∀ event ∈ outcome.events, event.spawnedIn? = none) ∨
    (outcome.stage.pool.activeCount = s.pool.activeCount + 1 ∧ ¬s.Full ∧
      outcome.events.filterMap Event.spawnedIn? = [s.pool.activeCount]) := by
  cases works with
  | refused failure _ => exact .inl ⟨rfl, List.forall_mem_singleton.mpr rfl⟩
  | exhausted name _ => exact .inl ⟨rfl, List.forall_mem_singleton.mpr rfl⟩
  | spawned name _ room =>
    refine .inr ⟨?_, Nat.ne_of_lt room, rfl⟩
    refine (Pool.activeCount_set room rfl).trans (if_neg fun used => ?_)
    exact Nat.lt_irrefl _ ((packed s.pool.activeCount).mp used)
  | answered into name slot actor _ _ => exact .inl ⟨rfl, List.forall_mem_singleton.mpr rfl⟩
  | departed move distance actor _ found =>
    have active := active_step_setOff found distance s.rules.speed dt
    refine .inl ⟨?_, fun event told => (spawnedIn?_depart move distance actor event told).1⟩
    rw [stage_depart]
    exact (Pool.activeCount_set (Pool.lt_capacity_of_get? found) active).trans
      (if_pos (by rw [found]; rfl))
  | resumed move actor _ found =>
    have active := active_step found dt
    refine .inl ⟨?_, fun event told => (spawnedIn?_stepped move _ _ event told).1⟩
    rw [stage_stepped]
    exact (Pool.activeCount_set (Pool.lt_capacity_of_get? found) active).trans
      (if_pos (by rw [found]; rfl))

theorem full_work (packed : s.pool.Packed) (works : s.Work dt underway outcome) (full : s.Full) :
    outcome.stage.Full ∧ ∀ event ∈ outcome.events, event.spawnedIn? = none := by
  rcases activeCount_work packed works with ⟨same, none⟩ | ⟨_, room, _⟩
  · exact ⟨same.trans (full.trans (capacity_work works).symm), none⟩
  · exact absurd full room

theorem full_of_exhaustion (works : s.Work dt underway outcome) {event : Event}
    (told : event ∈ outcome.events) (exhaustion : event.isExhaustion = true) : s.Full := by
  cases works with
  | refused failure other =>
    cases List.mem_singleton.mp told
    cases failure with
    | poolExhausted name capacity => exact absurd rfl (other name capacity)
    | unrecognized line => cases exhaustion
    | invalidDistance actor operand => cases exhaustion
    | unknownActor name => cases exhaustion
  | exhausted name full => exact full
  | spawned name _ _ =>
    rcases List.mem_cons.mp told with rfl | told
    · cases exhaustion
    · cases List.mem_singleton.mp told
      cases exhaustion
  | answered into name slot actor _ _ =>
    cases List.mem_singleton.mp told
    cases exhaustion
  | departed move distance actor _ _ =>
    rw [(spawnedIn?_depart move distance actor event told).2] at exhaustion
    cases exhaustion
  | resumed move actor _ _ =>
    rw [(spawnedIn?_stepped move _ _ event told).2] at exhaustion
    cases exhaustion

end Stage

namespace History

variable {permitted : Single → Prop} {rules : Rules} {h : History}

theorem Reached.replay_eq (reached : Reached permitted rules h) :
    Picture.replay h.emitted = h.scheduler.picture := by
  apply reached.keeps (P := fun s underway told =>
    Picture.replay told = s.picture underway.isSome)
  · refine Picture.ext ?_ rfl rfl rfl
    funext slot
    exact (congrArg (Option.map _) (Pool.get?_ofCapacity rules.capacity slot)).symm
  · intro s underway told dt outcome _ _ works same
    rw [Picture.replay_append, same]
    exact Stage.picture_work works

theorem Reached.spawnedIn?_eq_range (reached : Reached permitted rules h) :
    h.emitted.filterMap Event.spawnedIn? = List.range h.scheduler.stage.pool.activeCount := by
  apply reached.keeps (P := fun s _ told =>
    told.filterMap Event.spawnedIn? = List.range s.pool.activeCount)
  · exact (congrArg List.range (Pool.activeCount_ofCapacity rules.capacity)).symm
  · intro s underway told dt outcome coherent _ works before
    rw [List.filterMap_append, before]
    rcases Stage.activeCount_work coherent.packed works with ⟨same, none⟩ | ⟨more, _, one⟩
    · rw [List.filterMap_eq_nil_iff.mpr none, List.append_nil, same]
    · rw [one, more, List.range_succ]

/-- Once a spawn was refused for want of a free slot, no slot is free, and nobody is spawned. -/
theorem Reached.exhausted (reached : Reached permitted rules h) :
    (∀ event ∈ h.emitted, event.isExhaustion = true → h.scheduler.stage.Full) ∧
    h.emitted.Pairwise fun earlier later =>
      earlier.isExhaustion = true → later.spawnedIn? = none := by
  apply reached.keeps (P := fun s _ told =>
    (∀ event ∈ told, event.isExhaustion = true → s.Full) ∧
    told.Pairwise fun earlier later => earlier.isExhaustion = true → later.spawnedIn? = none)
  · constructor
    · intro event told
      exact absurd told List.not_mem_nil
    · exact List.Pairwise.nil
  · intro s underway told dt outcome coherent _ works before
    obtain ⟨full, ordered⟩ := before
    have barred := Stage.full_work coherent.packed works
    constructor
    · intro event member exhaustion
      rcases List.mem_append.mp member with old | new
      · exact (barred (full event old exhaustion)).1
      · exact (barred (Stage.full_of_exhaustion works new exhaustion)).1
    · refine List.pairwise_append.mpr ⟨ordered, ?_, ?_⟩
      · refine List.pairwise_of_forall_mem_list fun first new second member exhaustion => ?_
        exact (barred (Stage.full_of_exhaustion works new exhaustion)).2 second member
      · intro first old second new exhaustion
        exact (barred (full first old exhaustion)).2 second new

/-- However a scheduler is driven, replaying the events emitted so far gives its actors in use with
their names and positions, all bindings and variables, and whether it is busy. The spawns among them
fill the slots in order, after a refusal for want of a free slot there are none, and the events that
wait to be taken are the last of all. -/
theorem emitted_accounts (rules : Rules) (list : List Act) :
    let h := (ofRules rules).acts list
    Picture.replay h.emitted = h.scheduler.picture ∧
    h.emitted.filterMap Event.spawnedIn? = List.range h.scheduler.stage.pool.activeCount ∧
    (h.emitted.Pairwise fun earlier later =>
      earlier.isExhaustion = true → later.spawnedIn? = none) ∧
    h.scheduler.outbox.waiting <:+ h.emitted := by
  have reached := reached_acts rules list
  exact ⟨reached.replay_eq, reached.spawnedIn?_eq_range, reached.exhausted.2,
    reached.waiting_suffix⟩

end History
end Turtle
