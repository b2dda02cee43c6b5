import Turtle.Proofs.Beat
import Turtle.Proofs.Completion

/-! The course of the actors.
Nothing turns an actor, so every move goes forwards or backwards along one axis: an actor stays level
with the spawn point in the other two, and since no stride of a valid session is infinite, its place
on that axis is always a number. -/
namespace Turtle

namespace Vec

/-- Level with a point in all but the direction actors face, and not `nan` in that one. -/
structure Abreast (v point : Vec) : Prop where
  x : v.x.equals point.x = true
  y : v.y.equals point.y = true
  z : v.z ≠ .nan

variable {v point : Vec}

theorem abreast_self (finite : point.isFinite = true) : point.Abreast point := by
  simp only [isFinite, Bool.and_eq_true] at finite
  obtain ⟨⟨x, y⟩, z⟩ := finite
  have proper {c : Single} (holds : c.isFinite = true) : c ≠ .nan := by
    rintro rfl
    cases holds
  exact ⟨Number.equals_self _ (proper x), Number.equals_self _ (proper y), proper z⟩

/-- Only the third component of a displacement along the course counts. -/
theorem Abreast.add (abreast : v.Abreast point) (finite : point.isFinite = true) {s t : Bool}
    {delta : Single} (bounded : delta.isFinite = true) :
    (v + ⟨.zero s, .zero t, delta⟩).Abreast point := by
  simp only [isFinite, Bool.and_eq_true] at finite
  obtain ⟨⟨x, y⟩, z⟩ := finite
  have still {a b : Single} (same : a.equals b = true) (holds : b.isFinite = true) (s : Bool) :
      (a + .zero s).equals b = true := by
    have kept := Number.add_zero_equals (by decide) (Number.isFinite_of_equals same holds) s
    exact Number.equals_trans kept same
  constructor
  · exact still abreast.x x s
  · exact still abreast.y y t
  · exact Number.add_ne_nan abreast.z bounded

end Vec

theorem Rotation.forward_identity : identity.forward = .forward := by decide +kernel

namespace Number

/-- A factor of one, whatever the signs. -/
theorem finite_mul_one {F : Format} (fine : 0 < F.fractionBits) {one code : Nat} {s t : Bool}
    {h : one ≤ F.infinity} {hc : code ≤ F.infinity} (holds : F.quanta one = F.unit)
    (less : one < F.infinity) (finite : code < F.infinity) :
    (signed s one h * signed t code hc : Number F).isFinite = true := by
  rw [mul_of_finite less finite]
  apply decide_eq_true
  rw [holds, Nat.mul_comm, Format.nearest_quanta fine F.unit_pos hc]
  exact finite

theorem zero_mul_of_finite {F : Format} {code : Nat} {s t : Bool} {hc : code ≤ F.infinity}
    (finite : code < F.infinity) : (zero s * signed t code hc : Number F) = zero (s != t) := by
  have origin : 0 < F.infinity := Nat.zero_lt_of_lt finite
  apply (mul_of_finite origin finite).trans
  have none : F.nearest 0 F.unit = 0 := by
    simp [Format.nearest, roundDiv, F.unit_pos]
  simp [nearest, none, zero]

end Number

namespace Journey

variable {j : Journey} {pose : Pose} {point : Vec} {speed dt : Single}

/-- A journey along the course, forwards or backwards. -/
structure Straight (j : Journey) (speed : Single) : Prop where
  heading : j.heading = 1 ∨ j.heading = -1
  speed_eq : j.speed = speed

theorem straight_ofDistance (distance speed : Single) :
    (ofDistance distance speed).Straight speed := by
  refine ⟨?_, rfl⟩
  unfold ofDistance
  split
  · exact .inr rfl
  · exact .inl rfl

theorem Straight.step (straight : j.Straight speed) (pose : Pose) (dt : Single) :
    (j.step pose dt).1.Straight speed := by
  unfold Journey.step
  split
  · exact straight
  · exact ⟨straight.heading, straight.speed_eq⟩

theorem Straight.abreast_step (straight : j.Straight speed) (ahead : pose.rotation = .identity)
    (abreast : pose.position.Abreast point) (finite : point.isFinite = true) {code : Nat} {bounded}
    (strides : speed * dt = .signed false code bounded) (short : code < Format.single.infinity) :
    (j.step pose dt).2.rotation = .identity ∧ (j.step pose dt).2.position.Abreast point := by
  unfold Journey.step
  split
  · exact ⟨ahead, abreast⟩
  · refine ⟨ahead, ?_⟩
    simp only [Pose.translate, straight.speed_eq, strides, ahead, Rotation.forward_identity]
    have one : (1 : Single) = .signed false 0x3F800000 (by decide) := by decide +kernel
    -- the displacement is a zero, a zero and a stride
    have along (s : Bool) {c : Vec}
        (faces : c = ⟨.zero s, .zero s, .signed s 0x3F800000 (by decide)⟩) :
        (pose.position + c * (.signed false code bounded : Single)).Abreast point := by
      subst faces
      change (pose.position + ⟨.zero s * _, .zero s * _, _⟩ : Vec).Abreast point
      rw [Number.zero_mul_of_finite short]
      exact abreast.add finite
        (Number.finite_mul_one (by decide) Number.single_one (by decide) short)
    rcases straight.heading with forwards | backwards
    · rw [forwards]
      exact along false (by decide +kernel)
    · rw [backwards]
      exact along true (by decide +kernel)

end Journey

namespace Actor

variable {a : Actor} {point : Vec} {speed dt : Single}

/-- An actor on course: abreast of the spawn point, never turned, and at rest or on a straight
journey. -/
structure OnCourse (a : Actor) (point : Vec) (speed : Single) : Prop where
  abreast : a.position.Abreast point
  ahead : a.pose.rotation = .identity
  straight : ∀ journey, a.journey = some journey → journey.Straight speed

theorem OnCourse.setOff (course : a.OnCourse point speed) (distance : Single) :
    (a.setOff distance speed).OnCourse point speed := by
  refine ⟨course.abreast, course.ahead, ?_⟩
  intro journey under
  cases under
  exact Journey.straight_ofDistance distance speed

theorem OnCourse.step (course : a.OnCourse point speed) (finite : point.isFinite = true) {code : Nat}
    {bounded} (strides : speed * dt = .signed false code bounded)
    (short : code < Format.single.infinity) : (a.step dt).1.OnCourse point speed := by
  unfold Actor.step
  split
  · exact course
  · rename_i journey under
    have straight := course.straight journey under
    obtain ⟨ahead, abreast⟩ := straight.abreast_step course.ahead course.abreast finite strides short
    dsimp only
    split
    · refine ⟨abreast, ahead, ?_⟩
      intro later same
      cases same
      exact straight.step a.pose dt
    · refine ⟨abreast, ahead, ?_⟩
      intro later same
      cases same

end Actor

/-- The position an event carries, if it carries one. -/
def Event.position? : Event → Option Vec
  | spawned _ _ position => some position
  | moveStepped _ position => some position
  | moveCompleted _ position => some position
  | readBack _ position => some position
  | _ => none

namespace Stage

variable {s : Stage} {dt : Single} {told : List Event} {underway : Option Underway}
  {outcome : Outcome}

/-- Every position there is to be seen, on a stage and in the events so far, is abreast of the spawn
point. -/
structure OnCourse (s : Stage) (told : List Event) : Prop where
  actors : ∀ slot actor, s.pool.get? slot = some actor →
    actor.OnCourse s.rules.spawnPoint s.rules.speed
  events : ∀ event ∈ told, ∀ position, event.position? = some position →
    position.Abreast s.rules.spawnPoint
  readings : ∀ name position, s.positions.find? name = some position →
    position.Abreast s.rules.spawnPoint

theorem OnCourse.refill (course : s.OnCourse told) {slot : Slot} {actor : Actor}
    (within : slot < s.pool.capacity) (active : actor.active = true)
    (still : actor.OnCourse s.rules.spawnPoint s.rules.speed) {more : List Event}
    (here : ∀ event ∈ more, ∀ position, event.position? = some position →
      position = actor.position) (names : Bindings Slot) :
    Stage.OnCourse { s with pool := s.pool.set slot actor, actors := names } (told ++ more) := by
  constructor
  · intro other found held
    dsimp only at held
    rw [Pool.get?_set within active] at held
    split at held
    · cases held
      exact still
    · exact course.actors other found held
  · intro event member position carried
    rcases List.mem_append.mp member with old | new
    · exact course.events event old position carried
    · rw [here event new position carried]
      exact still.abreast
  · exact course.readings

theorem position?_stepped (move : Underway) (actor : Actor) (status : Status) :
    ∀ event ∈ (s.stepped move actor status).events, ∀ position, event.position? = some position →
      position = actor.position := by
  cases status <;> simp [stepped, Event.position?]

theorem position?_depart (move : Underway) (distance : Single) (actor : Actor) :
    ∀ event ∈ (s.depart dt move distance actor).events, ∀ position,
      event.position? = some position →
      position = ((actor.setOff distance s.rules.speed).step dt).1.position := by
  intro event member position carried
  rcases List.mem_cons.mp member with rfl | later
  · cases carried
  · exact position?_stepped move _ _ event later position carried

theorem OnCourse.work (course : s.OnCourse told) (finite : s.rules.spawnPoint.isFinite = true)
    {code : Nat} {bounded} (strides : s.rules.speed * dt = .signed false code bounded)
    (short : code < Format.single.infinity) (works : s.Work dt underway outcome) :
    outcome.stage.OnCourse (told ++ outcome.events) := by
  cases works with
  | refused failure _ =>
    refine ⟨course.actors, ?_, course.readings⟩
    simpa [Stage.fail, Event.position?, or_imp, forall_and] using course.events
  | exhausted name _ =>
    refine ⟨course.actors, ?_, course.readings⟩
    simpa [Stage.fail, Event.position?, or_imp, forall_and] using course.events
  | spawned name _ room =>
    apply course.refill room rfl
    · refine ⟨Vec.abreast_self finite, rfl, ?_⟩
      intro journey impossible
      cases impossible
    · simp [enroll, Event.position?, Actor.position]
  | answered into name slot actor bound found =>
    have here := (course.actors slot actor found).abreast
    refine ⟨course.actors, ?_, ?_⟩
    · intro event member position carried
      rcases List.mem_append.mp member with old | new
      · exact course.events event old position carried
      · cases List.mem_singleton.mp new
        cases carried
        exact here
    · intro other position held
      simp only [Bindings.find?_bind] at held
      split at held
      · cases held
        exact here
      · exact course.readings other position held
  | departed move distance actor bound found =>
    have sets := (course.actors move.slot actor found).setOff distance
    have active := active_step_setOff found distance s.rules.speed dt
    rw [stage_depart]
    exact course.refill (Pool.lt_capacity_of_get? found) active (sets.step finite strides short)
      (position?_depart move distance actor) _
  | resumed move actor bound found =>
    have goesOn := course.actors move.slot actor found
    rw [stage_stepped]
    exact course.refill (Pool.lt_capacity_of_get? found) (active_step found dt)
      (goesOn.step finite strides short) (position?_stepped move _ _) _

end Stage

namespace Config

/-- Validation keeps the speed finite, and a tick is at most a second. -/
theorem finite_stride {c : Config} (valid : c.invalid? = none) :
    ∃ code bounded, c.stride = .signed false code bounded ∧ code < Format.single.infinity := by
  obtain ⟨code, bounded, strides⟩ := unsigned_stride valid
  obtain ⟨finite, _⟩ := speed_of_valid valid
  obtain ⟨part, within, ticks, small⟩ := Pacer.inUnit_dt c.pace
  have less : part < Format.single.infinity :=
    Format.lt_of_quanta_lt (Nat.lt_of_le_of_lt small (by decide +kernel))
  refine ⟨code, bounded, strides, ?_⟩
  have product : c.stride.isFinite = true := by
    unfold stride
    rw [ticks]
    cases speed : c.moveSpeed with
    | nan =>
      rw [speed] at finite
      cases finite
    | signed s a ha =>
      rw [speed] at finite
      exact Number.mul_isFinite (by decide) (of_decide_eq_true finite) less small
  rw [strides] at product
  exact of_decide_eq_true product

theorem spawnPosition_of_valid {c : Config} (valid : c.invalid? = none) :
    c.spawnPosition.isFinite = true := by
  by_contra far
  have refused : c.invalid? ≠ none := by
    unfold invalid?
    split_ifs <;> simp_all
  exact refused valid

end Config

namespace History

variable {c : Config} {h : History}

theorem Reached.onCourse (reached : Reached (· = (Pacer.ofPace c.pace).dt) c.rules h)
    (valid : c.invalid? = none) : h.scheduler.stage.OnCourse h.emitted := by
  obtain ⟨code, bounded, strides, short⟩ := Config.finite_stride valid
  have finite := Config.spawnPosition_of_valid valid
  have kept := reached.keeps (P := fun s _ told => s.rules = c.rules ∧ s.OnCourse told)
  refine (kept ⟨rfl, ?_⟩ ?_).2
  · refine ⟨?_, ?_, ?_⟩
    · intro slot actor found
      have none := Pool.get?_ofCapacity c.rules.capacity slot
      cases none.symm.trans found
    · intro event member
      cases member
    · intro name position found
      cases found
  · rintro s underway told dt outcome _ rfl works ⟨same, course⟩
    refine ⟨(Stage.rules_work works).trans same, ?_⟩
    apply course.work (by rw [same]; exact finite) (by rw [same]; exact strides) short works

/-- In a session with a valid configuration, ticked at its own pace, every position of an actor in
use, of an event, of a variable and of an answer is level with the spawn point in two components, and
a number in the third. -/
theorem positions_stay_abreast (valid : c.invalid? = none) (list : List Act)
    (paced : ∀ a ∈ list, a.Keeps (· = (Pacer.ofPace c.pace).dt)) :
    let h := (ofRules c.rules).acts list
    (∀ slot actor, h.scheduler.stage.pool.get? slot = some actor →
      actor.position.Abreast c.spawnPosition) ∧
    (∀ event ∈ h.emitted, ∀ position, event.position? = some position →
      position.Abreast c.spawnPosition) ∧
    (∀ name position, h.scheduler.stage.positions.find? name = some position →
      position.Abreast c.spawnPosition) ∧
    ∀ name position, h.scheduler.stage.position name = .ok position →
      position.Abreast c.spawnPosition := by
  intro h
  have reached : Reached (· = (Pacer.ofPace c.pace).dt) c.rules h := Reached.acts .start paced
  have course := reached.onCourse valid
  have same : h.scheduler.stage.rules.spawnPoint = c.spawnPosition := by rw [reached.rules_eq]; rfl
  rw [← same]
  refine ⟨?_, course.events, course.readings, ?_⟩
  · intro slot actor found
    exact (course.actors slot actor found).abreast
  · intro name position answered
    unfold Stage.position at answered
    split at answered
    · rename_i actor held
      cases answered
      obtain ⟨slot, _, found⟩ := Option.bind_eq_some_iff.mp held
      exact (course.actors slot actor found).abreast
    · cases answered

/-- Three ticks backwards from a spawn point off the axis. -/
theorem backwards_from_aside :
    let c := { Config.standard with spawnPosition := ⟨1, -1, 0⟩ }
    let dt := (Pacer.ofPace c.pace).dt
    let list := [.submit "A=Turtle()", .submit "A.fd(-2)", .tick dt, .tick dt, .tick dt]
    let s := ((ofRules c.rules).acts list).scheduler
    c.invalid? = none ∧ (∀ a ∈ list, a.Keeps (· = dt)) ∧
      ∃ position, s.stage.position "A" = .ok position ∧ position.z < 0 ∧
        position.Abreast c.spawnPosition := by
  intro c dt list s
  have valid : c.invalid? = none := by decide +kernel
  have paced : ∀ a ∈ list, a.Keeps (· = dt) := by simp [list, Act.Keeps]
  have moved : ∃ position, s.stage.position "A" = .ok position ∧ position.z < 0 :=
    ⟨⟨1, -1, -Number.ofBits 0x3D088889⟩, by decide +kernel, by decide +kernel⟩
  obtain ⟨position, answered, behind⟩ := moved
  exact ⟨valid, paced, position, answered, behind,
    (positions_stay_abreast valid list paced).2.2.2 "A" position answered⟩

end History
end Turtle
