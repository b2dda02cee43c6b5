import Turtle.Proofs.Coherence

/-! What a tick leaves alone.
The state before a tick decides which slot, which name and which variable the tick may touch, and
all others stay as they are. So an actor whose name has gone over to a newer one is out of reach of
every later line. -/
namespace Turtle

theorem Actor.step_rotation (a : Actor) (dt : Single) :
    (a.step dt).1.pose.rotation = a.pose.rotation := by
  cases under : a.journey with
  | none => rw [step_of_rest under]
  | some journey =>
    have kept : (journey.step a.pose dt).2.rotation = a.pose.rotation := by
      unfold Journey.step
      split <;> rfl
    simp only [step, under]
    split
    · exact kept
    · exact kept

/-- What a tick does. -/
inductive Turn where
  | idle
  | refusal
  | spawn (name : String)
  /-- Reads a position into a variable. -/
  | query (into : String)
  /-- Begins a move of an actor, or goes on with it. -/
  | move (name : String)
  deriving DecidableEq

/-- The turn that an event is told in. -/
def Event.turn : Event → Turn
  | spawned name _ _ => .spawn name
  | idling name _ => .spawn name
  | moveStarted name _ => .move name
  | moveStepped name _ => .move name
  | moveCompleted name _ => .move name
  | readBack into _ => .query into
  | failed _ => .refusal

namespace Stage

/-- What the first tick of a command does. -/
def turn (s : Stage) : Command → Turn
  | .spawn name => if s.pool.activeCount < s.pool.capacity then .spawn name else .refusal
  | .query into actor => if (s.actors.find? actor).isSome then .query into else .refusal
  | .move actor _ => if (s.actors.find? actor).isSome then .move actor else .refusal
  | .malformedMove _ _ => .refusal
  | .unrecognized _ => .refusal

end Stage

/-- What the next tick does. -/
def Scheduler.turn (s : Scheduler) : Turn :=
  match s.underway, s.queue with
  | some move, _ => .move move.name
  | none, line :: _ => s.stage.turn (.ofLine line)
  | none, [] => .idle

namespace Turn

/-- The slot that a turn may touch: the one after those in use, or the one of the actor's name. -/
def slot? (s : Stage) : Turn → Option Slot
  | spawn _ => some s.pool.activeCount
  | move name => s.actors.find? name
  | _ => none

/-- A turn touches no slot but its own, binds no name but that of a spawn and no variable but that
of a query, and leaves of an actor that it moves all but the position and the journey. -/
structure Spares (turn : Turn) (s t : Stage) : Prop where
  rules : t.rules = s.rules
  capacity : t.pool.capacity = s.pool.capacity
  slots : ∀ slot, turn.slot? s ≠ some slot → t.pool.slots[slot]? = s.pool.slots[slot]?
  actors : ∀ name, turn ≠ .spawn name → t.actors.find? name = s.actors.find? name
  positions : ∀ name, turn ≠ .query name → t.positions.find? name = s.positions.find? name
  spawned : ∀ name, turn = .spawn name → s.pool.get? s.pool.activeCount = none ∧
    t.pool.get? s.pool.activeCount = some ⟨name, ⟨s.rules.spawnPoint, .identity⟩, true, none⟩ ∧
    t.actors.find? name = some s.pool.activeCount
  moved : ∀ name, turn = .move name → ∃ slot before after, s.actors.find? name = some slot ∧
    s.pool.get? slot = some before ∧ t.pool.get? slot = some after ∧ after.name = before.name ∧
    after.pose.rotation = before.pose.rotation

/-- The outcome of a tick fits a turn, in what is told and in what is touched. -/
structure Fits (turn : Turn) (s : Stage) (outcome : Outcome) : Prop where
  told : ∀ event ∈ outcome.events, event.turn = turn
  spares : turn.Spares s outcome.stage

variable {s : Stage} {dt : Single} {name : String} {slot : Slot} {actor : Actor}

/-- A turn that neither spawns nor moves touches the variables at most. -/
theorem spares_of_still {turn : Turn} (spawnless : ∀ name, turn ≠ .spawn name)
    (moveless : ∀ name, turn ≠ .move name) {positions : Bindings Vec}
    (kept : ∀ name, turn ≠ .query name → positions.find? name = s.positions.find? name) :
    turn.Spares s { s with positions := positions } where
  rules := rfl
  capacity := rfl
  slots _ _ := rfl
  actors _ _ := rfl
  positions := kept
  spawned name spawns := absurd spawns (spawnless name)
  moved name moves := absurd moves (moveless name)

theorem fits_fail (s : Stage) (failure : Failure) : refusal.Fits s (s.fail failure) where
  told := by simp [Stage.fail, Event.turn]
  spares := spares_of_still (fun _ => Turn.noConfusion) (fun _ => Turn.noConfusion) fun _ _ => rfl

theorem fits_record (s : Stage) (into : String) (position : Vec) :
    (query into).Fits s ⟨{ s with positions := s.positions.bind into position },
      [.readBack into position], none⟩ where
  told := by simp [Event.turn]
  spares := by
    apply spares_of_still
    · exact fun _ => Turn.noConfusion
    · exact fun _ => Turn.noConfusion
    · intro other different
      have apart : other ≠ into := fun same => different (congrArg query same.symm)
      exact (Bindings.find?_bind _ _ _ _).trans (if_neg apart)

/-- The slot after those in use was free, and is filled. -/
theorem spares_enroll (packed : s.pool.Packed) (room : s.pool.activeCount < s.pool.capacity)
    (name : String) : (spawn name).Spares s (s.enroll name).stage := by
  have unused := mt (packed s.pool.activeCount).mp (Nat.lt_irrefl _)
  constructor
  · rfl
  · exact Pool.capacity_set _ _ _
  · intro slot other
    have different : slot ≠ s.pool.activeCount := fun same => other (congrArg some same.symm)
    exact (Pool.getElem?_set room _ slot).trans (if_neg different)
  · intro other different
    have apart : other ≠ name := fun same => different (congrArg spawn same.symm)
    exact (Bindings.find?_bind _ _ _ _).trans (if_neg apart)
  · exact fun _ _ => rfl
  · rintro _ ⟨⟩
    exact ⟨Option.not_isSome_iff_eq_none.mp unused, Stage.get?_enroll room name,
      Stage.find?_enroll s name⟩
  · exact fun _ => Turn.noConfusion

theorem fits_enroll (packed : s.pool.Packed) (room : s.pool.activeCount < s.pool.capacity)
    (name : String) : (spawn name).Fits s (s.enroll name) where
  told := by simp [Stage.enroll, Event.turn]
  spares := spares_enroll packed room name

/-- An actor in use may be replaced by itself in another place. -/
theorem spares_refill (bound : s.actors.find? name = some slot)
    (found : s.pool.get? slot = some actor) {after : Actor} (active : after.active = true)
    (same : after.name = actor.name) (faces : after.pose.rotation = actor.pose.rotation) :
    (move name).Spares s { s with pool := s.pool.set slot after } := by
  have within := Pool.lt_capacity_of_get? found
  constructor
  · rfl
  · exact Pool.capacity_set _ _ _
  · intro other elsewhere
    have different : other ≠ slot := fun same =>
      elsewhere (bound.trans (congrArg some same.symm))
    exact (Pool.getElem?_set within _ other).trans (if_neg different)
  · exact fun _ _ => rfl
  · exact fun _ _ => rfl
  · exact fun _ => Turn.noConfusion
  · rintro _ ⟨⟩
    exact ⟨slot, actor, after, bound, found, Pool.get?_set_self within active, same, faces⟩

theorem fits_stepped (bound : s.actors.find? name = some slot)
    (found : s.pool.get? slot = some actor) (dt : Single) :
    (move name).Fits s (s.stepped ⟨slot, name⟩ (actor.step dt).1 (actor.step dt).2) where
  told := by cases (actor.step dt).2 <;> simp [Stage.stepped, Event.turn]
  spares := by
    rw [Stage.stage_stepped]
    exact spares_refill bound found (Stage.active_step found dt) (actor.step_name dt)
      (actor.step_rotation dt)

theorem fits_depart (bound : s.actors.find? name = some slot)
    (found : s.pool.get? slot = some actor) (distance dt : Single) :
    (move name).Fits s (s.depart dt ⟨slot, name⟩ distance actor) where
  told := by
    cases status : ((actor.setOff distance s.rules.speed).step dt).2 with
    | running => simp [Stage.depart_of_running status, Event.turn]
    | complete => simp [Stage.depart_of_complete status, Event.turn]
  spares := by
    rw [Stage.stage_depart]
    have set : (actor.setOff distance s.rules.speed).pose.rotation = actor.pose.rotation := rfl
    exact spares_refill bound found (Stage.active_step_setOff found _ _ dt)
      (Actor.step_name _ dt) ((Actor.step_rotation _ dt).trans set)

end Turn

namespace Stage

variable {s : Stage}

theorem Refuses.turn_eq {c : Command} {failure : Failure} (refuses : s.Refuses c failure) :
    s.turn c = .refusal := by
  cases refuses with
  | full name full => exact if_neg (Nat.not_lt_of_ge (Nat.le_of_eq full.symm))
  | unread into name unbound => simp [turn, unbound]
  | unmoved name distance unbound => simp [turn, unbound]
  | stranger name operand unbound => rfl
  | operand name operand known => rfl
  | unrecognized line => rfl

/-- The first tick of a command fits the turn that it takes on this stage. -/
theorem turn_fits (packed : s.pool.Packed) (bound : s.Bound) (dt : Single) (c : Command) :
    (s.turn c).Fits s (s.perform dt c) := by
  have performs := performs packed bound dt c
  generalize s.perform dt c = outcome at performs ⊢
  cases performs with
  | refused failure refuses =>
    rw [refuses.turn_eq]
    exact Turn.fits_fail s failure
  | enrolled name room =>
    rw [turn, if_pos room]
    exact Turn.fits_enroll packed room name
  | answered into name slot actor named held =>
    rw [turn, named]
    exact Turn.fits_record s into actor.position
  | departed name distance slot actor named held =>
    rw [turn, named]
    exact Turn.fits_depart named held distance dt

/-- An actor in use whose name is not bound to its slot. -/
structure Shadows (s : Stage) (slot : Slot) (actor : Actor) : Prop where
  held : s.pool.get? slot = some actor
  unbound : s.actors.find? actor.name ≠ some slot

variable {underway : Option Underway} {slot : Slot} {actor : Actor}

/-- No name at all is bound to the slot. -/
theorem Shadows.unnamed (shadows : s.Shadows slot actor) (coherent : s.Coherent underway)
    (name : String) : s.actors.find? name ≠ some slot := by
  intro bound
  have carries := (coherent.newest name slot bound).1
  cases (Pool.nameOf?_of_get? shadows.held).symm.trans carries
  exact shadows.unbound bound

/-- No turn touches the slot or binds its name to it again. -/
theorem Shadows.spared (shadows : s.Shadows slot actor) (coherent : s.Coherent underway)
    {turn : Turn} {t : Stage} (spares : turn.Spares s t) : t.Shadows slot actor := by
  have apart : ∀ name, turn = .spawn name → s.pool.activeCount ≠ slot := by
    rintro name spawns rfl
    cases shadows.held.symm.trans (spares.spawned name spawns).1
  have elsewhere : turn.slot? s ≠ some slot := by
    cases turn with
    | idle => exact (Option.some_ne_none slot).symm
    | refusal => exact (Option.some_ne_none slot).symm
    | query into => exact (Option.some_ne_none slot).symm
    | spawn name => exact fun same => apart name rfl (Option.some.inj same)
    | move name => exact shadows.unnamed coherent name
  constructor
  · unfold Pool.get?
    rw [spares.slots slot elsewhere]
    exact shadows.held
  · by_cases spawns : turn = .spawn actor.name
    · rw [(spares.spawned _ spawns).2.2]
      exact fun same => apart _ spawns (Option.some.inj same)
    · rw [spares.actors _ spawns]
      exact shadows.unbound

end Stage

namespace Scheduler

variable {s : Scheduler} {slot : Slot} {actor : Actor}

theorem Coherent.turn_fits (coherent : s.Coherent) (dt : Single) :
    (∀ event ∈ s.emits dt, event.turn = s.turn) ∧ s.turn.Spares s.stage (s.tick dt).stage := by
  unfold Coherent at coherent
  obtain ⟨stage, queue, underway, outbox, completed⟩ := s
  cases underway with
  | some move =>
    obtain ⟨bound, actor, _, found, _, _⟩ := coherent.resumes move rfl
    have fits := Turn.fits_stepped bound found dt
    rw [← Stage.resume_of_get? found] at fits
    exact ⟨fits.told, fits.spares⟩
  | none =>
    cases queue with
    | nil =>
      refine ⟨fun _ impossible => absurd impossible List.not_mem_nil, ?_⟩
      exact Turn.spares_of_still (fun _ => Turn.noConfusion) (fun _ => Turn.noConfusion)
        fun _ _ => rfl
    | cons line rest =>
      have fits := Stage.turn_fits coherent.packed coherent.boundInUse dt (.ofLine line)
      exact ⟨fits.told, fits.spares⟩

/-- A shadowed actor stays in its slot as it is, whatever is done to the scheduler. -/
theorem Coherent.shadows_acts (coherent : s.Coherent) (shadows : s.stage.Shadows slot actor)
    (list : List Act) :
    (s.acts list).Coherent ∧ (s.acts list).stage.Shadows slot actor := by
  apply acts_keeps (P := fun s => s.Coherent ∧ s.stage.Shadows slot actor)
  · rintro s line ⟨coherent, shadows⟩
    rw [submit_eq]
    exact ⟨coherent, shadows⟩
  · rintro s dt ⟨coherent, shadows⟩
    exact ⟨coherent.tick dt, Stage.Shadows.spared shadows coherent (coherent.turn_fits dt).2⟩
  · exact fun s holds => holds
  · exact ⟨coherent, shadows⟩

/-- Once a name has been taken over by a new actor, the old one is shadowed. -/
theorem Coherent.shadows_spawn (coherent : s.Coherent) {name : String}
    (bound : s.stage.actors.find? name = some slot) (spawns : s.turn = .spawn name) (dt : Single) :
    ∃ actor, s.stage.pool.get? slot = some actor ∧ actor.name = name ∧
      (s.tick dt).stage.Shadows slot actor := by
  have spares := (coherent.turn_fits dt).2
  obtain ⟨free, _, binds⟩ := spares.spawned name spawns
  obtain ⟨actor, held, named⟩ :=
    Option.map_eq_some_iff.mp (Stage.Coherent.newest coherent name slot bound).1
  have apart : s.stage.pool.activeCount ≠ slot := by
    rintro rfl
    cases held.symm.trans free
  have elsewhere : s.turn.slot? s.stage ≠ some slot := by
    rw [spawns]
    exact fun same => apart (Option.some.inj same)
  refine ⟨actor, held, named, ?_, ?_⟩
  · unfold Pool.get?
    rw [spares.slots slot elsewhere]
    exact held
  · rw [named, binds]
    exact fun same => apart (Option.some.inj same)

/-- However a scheduler is driven, a tick touches the slot, the name or the variable of its turn, and
spares the rest. Once a name is spawned again, the slot that had the name is out of reach, of every
name and of the move under way, and its actor stays there as it is. -/
theorem tick_isolates (rules : Rules) (list : List Act) :
    let s := (ofRules rules).acts list
    (∀ dt, (∀ event ∈ s.emits dt, event.turn = s.turn) ∧
      s.turn.Spares s.stage (s.tick dt).stage) ∧
    ∀ name slot dt, s.stage.actors.find? name = some slot → s.turn = .spawn name →
      ∃ actor, s.stage.pool.get? slot = some actor ∧ actor.name = name ∧
        ∀ more, let later := (s.tick dt).acts more
          later.stage.pool.get? slot = some actor ∧
          (∀ other, later.stage.actors.find? other ≠ some slot) ∧
          ∀ move, later.underway = some move → move.slot ≠ slot := by
  intro s
  have coherent : s.Coherent := coherent_acts rules list
  refine ⟨coherent.turn_fits, fun name slot dt bound spawns => ?_⟩
  obtain ⟨actor, held, named, shadows⟩ := coherent.shadows_spawn bound spawns dt
  refine ⟨actor, held, named, fun more => ?_⟩
  obtain ⟨later, still⟩ := (coherent.tick dt).shadows_acts shadows more
  refine ⟨still.held, still.unnamed later, ?_⟩
  rintro move busy rfl
  exact still.unnamed later move.name (Stage.Coherent.resumes later move busy).1

/-- The first of two actors has come to the end of a move when its name goes over to the second. -/
theorem first_actor_stays :
    let s := (ofRules .standard).acts
      [.submit "A=Turtle()", .submit "A.fd(2)", .submit "A=Turtle()", .submit "A.fd(1)", .run 1 3]
    s.stage.actors.find? "A" = some 0 ∧ s.turn = .spawn "A" ∧
      (s.tick 1).stage.actors.find? "A" = some 1 ∧
      ∀ more, ((s.tick 1).acts more).stage.pool.get? 0 = s.stage.pool.get? 0 := by
  intro s
  have bound : s.stage.actors.find? "A" = some 0 := by decide +kernel
  have spawns : s.turn = .spawn "A" := by decide +kernel
  obtain ⟨actor, held, _, stays⟩ := (tick_isolates .standard _).2 "A" 0 1 bound spawns
  exact ⟨bound, spawns, by decide +kernel, fun more => (stays more).1.trans held.symm⟩

end Scheduler
end Turtle
