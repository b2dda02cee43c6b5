import Turtle.Proofs.Coherence
import Turtle.Proofs.Interpreter

/-! Under ticks of one length a scheduler does what the sequential interpreter does with the lines it
has accepted, only later: what it has emitted is an initial part of what the interpreter tells, and
at idleness it is all of it. So the outcome does not depend on when lines and ticks came. -/
namespace Turtle

namespace Stage

variable {s : Stage} {dt : Single}

theorem conduct_of_get? {name : String} {slot : Slot} {actor : Actor}
    (bound : s.actors.find? name = some slot) (found : s.pool.get? slot = some actor)
    (patience : Nat) (distance : Single) :
    s.conduct dt patience (.move name distance) =
      let trip := (actor.setOff distance s.rules.speed).travel name dt patience
      { stage := { s with pool := s.pool.set slot trip.actor }
        events := .moveStarted name distance :: trip.events
        underway := if trip.status = .complete then none else some ⟨slot, name⟩ } := by
  unfold conduct
  simp only [bound, Option.bind_some, found, Option.map_some]

/-- The first tick of a command either carries it to its end, or is the first step of a move that
goes on. -/
theorem conduct_or_depart (bound : s.Bound) (dt : Single) (c : Command) :
    ((s.perform dt c).underway = none ∧
      ∀ patience, 0 < patience → s.conduct dt patience c = s.perform dt c) ∨
    ∃ move distance actor, c = .move move.name distance ∧
      s.actors.find? move.name = some move.slot ∧ s.pool.get? move.slot = some actor ∧
      ((actor.setOff distance s.rules.speed).step dt).2 = .running ∧
      s.perform dt c = s.depart dt move distance actor := by
  cases c with
  | spawn name =>
    refine .inl ⟨?_, fun _ _ => rfl⟩
    change (s.spawn name).underway = none
    unfold spawn
    split <;> rfl
  | query into name =>
    refine .inl ⟨?_, fun _ _ => rfl⟩
    change (s.query into name).underway = none
    unfold query
    split <;> rfl
  | move name distance =>
    cases found : s.actors.find? name with
    | none =>
      have refused : s.perform dt (.move name distance) = s.fail (.unknownActor name) :=
        move_of_unbound found distance
      refine .inl ⟨by rw [refused]; rfl, fun patience _ => ?_⟩
      rw [refused]
      unfold conduct
      simp only [found, Option.bind_none]
    | some slot =>
      obtain ⟨actor, held⟩ := Option.isSome_iff_exists.mp (bound name slot found)
      have begun : s.perform dt (.move name distance) = s.depart dt ⟨slot, name⟩ distance actor :=
        move_of_get? found held distance
      cases status : ((actor.setOff distance s.rules.speed).step dt).2 with
      | running => exact .inr ⟨⟨slot, name⟩, distance, actor, rfl, found, held, status, begun⟩
      | complete =>
        refine .inl ⟨by rw [begun, depart_of_complete status], fun patience positive => ?_⟩
        obtain ⟨more, rfl⟩ := Nat.exists_eq_succ_of_ne_zero (Nat.ne_of_gt positive)
        rw [begun, depart_of_complete status, conduct_of_get? found held,
          Actor.travel_succ_of_complete more status]
        rfl
  | malformedMove name operand =>
    refine .inl ⟨?_, fun _ _ => rfl⟩
    change (s.rejectMove name operand).underway = none
    unfold rejectMove
    split <;> rfl
  | unrecognized line => exact .inl ⟨rfl, fun _ _ => rfl⟩

end Stage

def Transcript.extend (t : Transcript) (outcome : Outcome) : Transcript :=
  ⟨outcome.stage, t.events ++ outcome.events, none, t.completed + 1⟩

namespace History

/-- How far a run has got with its lines, given what the interpreter makes of those that are done:
nothing is going on, or a move has gone some steps. -/
inductive Progress (dt : Single) (done : List String) (t : Transcript) (h : History) : Prop where
  | resting :
      h.scheduler.underway = none → h.accepted = done ++ h.scheduler.queue →
      h.emitted = t.events → h.scheduler.stage = t.stage → Progress dt done t h
  | midway (line : String) (move : Underway) (distance : Single) (steps : Nat) (actor : Actor)
      (events : List Event) (current : Actor) :
      h.scheduler.underway = some move → h.accepted = done ++ line :: h.scheduler.queue →
      Command.ofLine line = .move move.name distance →
      t.stage.actors.find? move.name = some move.slot →
      t.stage.pool.get? move.slot = some actor →
      (actor.setOff distance t.stage.rules.speed).travel move.name dt steps
        = ⟨events, current, .running⟩ →
      h.emitted = t.events ++ .moveStarted move.name distance :: events →
      h.scheduler.stage = { t.stage with pool := t.stage.pool.set move.slot current } →
      Progress dt done t h

/-- A run agrees with the interpreter, which needs no more patience than there are events. -/
structure Follows (rules : Rules) (dt : Single) (done : List String) (t : Transcript)
    (h : History) : Prop where
  settled : ∀ patience, h.emitted.length < patience →
    Transcript.interpret rules dt patience done = t
  free : t.underway = none
  completed : h.scheduler.completed = min t.completed (twoTo 64 - 1)
  progress : Progress dt done t h

variable {rules : Rules} {dt : Single} {done : List String} {t : Transcript} {h : History}

theorem follows_ofRules (rules : Rules) (dt : Single) :
    Follows rules dt [] (.ofRules rules) (ofRules rules) where
  settled _ _ := rfl
  free := rfl
  completed := (Nat.zero_min _).symm
  progress := .resting rfl rfl rfl rfl

theorem Follows.submit (follows : Follows rules dt done t h) (line : String) :
    Follows rules dt done t (h.submit line) := by
  have queued (before : List String) (same : h.accepted = before ++ h.scheduler.queue) :=
    accepted_submit same line
  rw [h.submit_eq] at queued ⊢
  refine ⟨follows.settled, follows.free, follows.completed, ?_⟩
  cases follows.progress with
  | resting idle waiting told stage => exact .resting idle (queued _ waiting) told stage
  | midway first move distance steps actor events current busy waiting reads bound found going
      told stage =>
    refine .midway first move distance steps actor events current busy ?_ reads bound found going
      told stage
    have all := queued (done ++ [first]) (waiting.trans (List.append_cons _ _ _))
    exact all.trans (List.append_cons _ _ _).symm

/-- A line that is carried to its end is one more line that the interpreter has done. -/
theorem Follows.finish (follows : Follows rules dt done t h) {line : String} {outcome : Outcome}
    {enough : Nat} (ends : outcome.underway = none)
    (conducts : ∀ patience, enough < patience →
      t.stage.conduct dt patience (.ofLine line) = outcome)
    (more : h.emitted.length ≤ enough) (patience : Nat) (large : enough < patience) :
    Transcript.interpret rules dt patience (done ++ [line]) = t.extend outcome := by
  rw [Transcript.interpret_append, follows.settled patience (Nat.lt_of_le_of_lt more large)]
  rw [List.foldl_cons, List.foldl_nil, Transcript.next, follows.free]
  simp only [conducts patience large, ends, Option.isSome_none, Bool.false_eq_true, if_false]
  rfl

theorem Follows.start (follows : Follows rules dt done t h) (coherent : h.scheduler.Coherent)
    {line : String} {rest : List String} (free : h.scheduler.underway = none)
    (queued : h.scheduler.queue = line :: rest) :
    ∃ done t, Follows rules dt done t (h.tick dt) := by
  obtain ⟨told, stage, waiting⟩ : h.emitted = t.events ∧ h.scheduler.stage = t.stage ∧
      h.accepted = done ++ line :: rest := by
    cases follows.progress with
    | resting _ waiting told stage => exact ⟨told, stage, queued ▸ waiting⟩
    | midway _ _ _ _ _ _ _ busy => cases free.symm.trans busy
  have bound : t.stage.Bound := stage ▸ Stage.Coherent.boundInUse coherent
  obtain ⟨next, emitted⟩ := Scheduler.tick_of_line free queued dt
  unfold tick
  rw [next, emitted, stage]
  rcases Stage.conduct_or_depart bound dt (.ofLine line) with ⟨ends, conducts⟩ |
    ⟨move, distance, actor, reads, bound, found, goesOn, begun⟩
  · refine ⟨done ++ [line], t.extend (t.stage.perform dt (.ofLine line)),
      fun patience large => ?_, rfl, ?_, .resting ends ?_ ?_ rfl⟩
    · have longer := Nat.lt_of_le_of_lt (List.length_append ▸ Nat.le_add_right _ _) large
      exact follows.finish ends (fun patience large => conducts patience (Nat.zero_lt_of_lt large))
        (Nat.le_refl _) patience longer
    · unfold Scheduler.conclude
      simp only [ends, Option.isSome_none, Bool.false_eq_true, if_false, follows.completed]
      exact countUp_min t.completed
    · exact waiting.trans (List.append_cons _ _ _)
    · rw [told]
      rfl
  · rw [begun, Stage.depart_of_running goesOn]
    refine ⟨done, t, fun patience large => ?_, follows.free, ?_, ?_⟩
    · have longer := Nat.lt_of_le_of_lt (List.length_append ▸ Nat.le_add_right _ _) large
      exact follows.settled patience longer
    · exact follows.completed
    · refine .midway line move distance 1 actor _ _ rfl waiting reads bound found
        (Actor.travel_succ_of_running 0 goesOn) ?_ rfl
      rw [told]
      rfl

theorem Follows.resume (follows : Follows rules dt done t h)
    {move : Underway} (busy : h.scheduler.underway = some move) :
    ∃ done t, Follows rules dt done t (h.tick dt) := by
  obtain ⟨next, emitted⟩ := Scheduler.tick_of_move busy dt
  unfold tick
  rw [next, emitted]
  cases follows.progress with
  | resting free => cases free.symm.trans busy
  | midway line same distance steps actor events current under waiting reads bound found going
      told stage =>
    cases busy.symm.trans under
    have active : current.active = true := by
      have kept := Actor.travel_active move.name dt steps
        (actor.setOff distance t.stage.rules.speed)
      rw [going] at kept
      exact kept.trans (Stage.active_setOff found _ _)
    have within := Pool.lt_capacity_of_get? found
    have here : h.scheduler.stage.pool.get? move.slot = some current := by
      rw [stage]
      exact Pool.get?_set_self within active
    have count : events.length = steps := Actor.length_travel going
    have short : steps < h.emitted.length := by
      rw [told, List.length_append, List.length_cons, count]
      omega
    rw [Stage.resume_of_get? here]
    cases status : (current.step dt).2 with
    | running =>
      refine ⟨done, t, fun patience large => ?_, follows.free, follows.completed, ?_⟩
      · have longer := Nat.lt_of_le_of_lt (List.length_append ▸ Nat.le_add_right _ _) large
        exact follows.settled patience longer
      · refine .midway line move distance (steps + 1) actor
          (events ++ [.moveStepped move.name (current.step dt).1.position]) (current.step dt).1
          rfl waiting reads bound found ?_ ?_ ?_
        · rw [Actor.travel_add going, Actor.travel_succ_of_running 0 status]
          rfl
        · rw [told, List.append_assoc]
          rfl
        · rw [stage]
          exact congrArg (fun pool => { t.stage with pool := pool }) (Pool.set_set _ _ _ _)
    | complete =>
      let outcome : Outcome :=
        ⟨{ t.stage with pool := t.stage.pool.set move.slot (current.step dt).1 },
          .moveStarted move.name distance ::
            (events ++ [.moveCompleted move.name (current.step dt).1.position]), none⟩
      have conducts : ∀ patience, h.emitted.length < patience →
          t.stage.conduct dt patience (.ofLine line) = outcome := by
        intro patience large
        obtain ⟨more, rfl⟩ := Nat.exists_eq_add_of_lt (Nat.lt_trans short large)
        rw [reads, Stage.conduct_of_get? bound found, Nat.add_assoc, Actor.travel_add going,
          Actor.travel_succ_of_complete more status]
        rfl
      refine ⟨done ++ [line], t.extend outcome, fun patience large => ?_, rfl, ?_,
        .resting rfl ?_ ?_ ?_⟩
      · have longer := Nat.lt_of_le_of_lt (List.length_append ▸ Nat.le_add_right _ _) large
        exact follows.finish rfl conducts (Nat.le_refl _) patience longer
      · refine Eq.trans ?_ (countUp_min t.completed)
        exact congrArg countUp follows.completed
      · exact waiting.trans (List.append_cons _ _ _)
      · rw [told, List.append_assoc]
        rfl
      · rw [stage]
        exact congrArg (fun pool => { t.stage with pool := pool }) (Pool.set_set _ _ _ _)

theorem Reached.follows {h : History} (reached : Reached (· = dt) rules h) :
    ∃ done t, Follows rules dt done t h := by
  induction reached with
  | start => exact ⟨[], .ofRules rules, follows_ofRules rules dt⟩
  | submit line _ ih =>
    obtain ⟨done, t, follows⟩ := ih
    exact ⟨done, t, follows.submit line⟩
  | @tick h _ earlier same ih =>
    subst same
    obtain ⟨done, t, follows⟩ := ih
    cases busy : h.scheduler.underway with
    | some move => exact follows.resume busy
    | none =>
      cases queued : h.scheduler.queue with
      | cons line rest => exact follows.start earlier.coherent busy queued
      | nil =>
        obtain ⟨still, silent⟩ := Scheduler.tick_of_rest busy queued _
        refine ⟨done, t, ?_⟩
        unfold History.tick
        rw [still, silent, List.append_nil]
        exact follows
  | drain _ ih =>
    obtain ⟨done, t, follows⟩ := ih
    refine ⟨done, t, follows.settled, follows.free, follows.completed, ?_⟩
    cases follows.progress with
    | resting free waiting told stage => exact .resting free waiting told stage
    | midway line move distance steps actor events current busy waiting reads bound found going
        told stage =>
      exact .midway line move distance steps actor events current busy waiting reads bound found
        going told stage

/-- What has been emitted is an initial part of what the interpreter tells, once its patience goes
beyond the events there are. -/
theorem Follows.emitted_prefix (follows : Follows rules dt done t h) {patience : Nat}
    (large : h.emitted.length < patience) :
    h.emitted <+: (Transcript.interpret rules dt patience h.accepted).events := by
  cases follows.progress with
  | resting _ waiting told _ =>
    rw [waiting, told, Transcript.interpret_append, follows.settled patience large]
    exact Transcript.events_foldl _ _
  | midway line move distance steps actor events current _ waiting reads bound found going told _ =>
    rw [waiting, Transcript.interpret_append, follows.settled patience large, List.foldl_cons]
    refine List.IsPrefix.trans ?_ (Transcript.events_foldl _ _)
    have count : events.length = steps := Actor.length_travel going
    have short : steps < patience := by
      rw [told, List.length_append, List.length_cons, count] at large
      omega
    obtain ⟨more, rfl⟩ := Nat.exists_eq_add_of_lt short
    rw [told, Transcript.next, follows.free]
    dsimp only
    rw [reads, Stage.conduct_of_get? bound found, Nat.add_assoc, Actor.travel_add going]
    refine (List.prefix_append_right_inj _).mpr (List.cons_prefix_cons.mpr ⟨rfl, ?_⟩)
    exact List.prefix_append _ _

theorem Follows.of_isIdle (follows : Follows rules dt done t h)
    (idle : h.scheduler.isIdle = true) :
    h.accepted = done ∧ h.emitted = t.events ∧ h.scheduler.stage = t.stage := by
  rw [Scheduler.isIdle_iff] at idle
  cases follows.progress with
  | resting _ waiting told stage =>
    rw [idle.2, List.append_nil] at waiting
    exact ⟨waiting, told, stage⟩
  | midway _ _ _ _ _ _ _ busy => cases idle.1.symm.trans busy

theorem Reached.refines {h : History} (reached : Reached (· = dt) rules h) (patience : Nat)
    (large : h.emitted.length < patience) :
    let t := Transcript.interpret rules dt patience h.accepted
    h.emitted <+: t.events ∧
    (h.scheduler.isIdle = true → t.underway = none ∧ h.emitted = t.events ∧
      h.scheduler.stage = t.stage ∧ h.scheduler.completed = min t.completed (twoTo 64 - 1)) := by
  obtain ⟨done, t, follows⟩ := reached.follows
  constructor
  · exact follows.emitted_prefix large
  · intro idle
    obtain ⟨waiting, told, stage⟩ := follows.of_isIdle idle
    rw [waiting, follows.settled patience large]
    exact ⟨follows.free, told, stage, follows.completed⟩

/-- However lines and ticks of one length alternate, what has been emitted is an initial part of
what the interpreter tells of the accepted lines, and at idleness the events, the stage and the
count of completed commands are those of the interpreter. So two runs that have accepted the same
lines are alike when both are idle. -/
theorem refines_interpreter (rules : Rules) (dt : Single) (list : List Act)
    (steady : ∀ a ∈ list, a.Keeps (· = dt)) :
    let h := (ofRules rules).acts list
    (∀ patience, h.emitted.length < patience →
      let t := Transcript.interpret rules dt patience h.accepted
      h.emitted <+: t.events ∧
      (h.scheduler.isIdle = true → t.underway = none ∧ h.emitted = t.events ∧
        h.scheduler.stage = t.stage ∧ h.scheduler.completed = min t.completed (twoTo 64 - 1))) ∧
    ∀ other : List Act, (∀ a ∈ other, a.Keeps (· = dt)) →
      let k := (ofRules rules).acts other
      k.accepted = h.accepted → h.scheduler.isIdle = true → k.scheduler.isIdle = true →
      k.emitted = h.emitted ∧ k.scheduler.stage = h.scheduler.stage ∧
        k.scheduler.completed = h.scheduler.completed := by
  have reached : Reached (· = dt) rules ((ofRules rules).acts list) :=
    Reached.acts .start steady
  refine ⟨reached.refines, ?_⟩
  intro other steady k same idle alsoIdle
  have also : Reached (· = dt) rules ((ofRules rules).acts other) :=
    Reached.acts .start steady
  -- patience for both runs at once, so that both are compared with one transcript
  let patience := ((ofRules rules).acts list).emitted.length
    + ((ofRules rules).acts other).emitted.length + 1
  have first := (reached.refines patience (by omega)).2 idle
  have second := (also.refines patience (by omega)).2 alsoIdle
  rw [same] at second
  exact ⟨second.2.1.trans first.2.1.symm, second.2.2.1.trans first.2.2.1.symm,
    second.2.2.2.trans first.2.2.2.symm⟩

/-- Three lines given at once, and the same lines given between ticks, one of them during a move. -/
theorem scattered_lines_end_alike :
    let gathered : List Act :=
      [.submit "A=Turtle()", .submit "A.fd(2)", .submit "p=A.position()", .run 1 9]
    let scattered : List Act :=
      [.submit "A=Turtle()", .tick 1, .tick 1, .submit "A.fd(2)", .tick 1,
        .submit "p=A.position()", .drain, .tick 1, .tick 1]
    let h := (ofRules .standard).acts gathered
    let k := (ofRules .standard).acts scattered
    (∀ a ∈ gathered, a.Keeps (· = 1)) ∧ (∀ a ∈ scattered, a.Keeps (· = 1)) ∧
      h.emitted.length = 6 ∧ h.emitted = (Transcript.interpret .standard 1 7 h.accepted).events ∧
      k.emitted = h.emitted ∧ k.scheduler.stage = h.scheduler.stage := by
  intro gathered scattered h k
  have steady : ∀ a ∈ gathered, a.Keeps (· = 1) := by
    simp only [gathered, List.forall_mem_cons, Act.Keeps, true_and, List.not_mem_nil,
      false_imp_iff, implies_true]
  have alsoSteady : ∀ a ∈ scattered, a.Keeps (· = 1) := by
    simp only [scattered, List.forall_mem_cons, Act.Keeps, true_and, List.not_mem_nil,
      false_imp_iff, implies_true]
  have six : h.emitted.length = 6 := by decide +kernel
  have idle : h.scheduler.isIdle = true := by decide +kernel
  have refined := refines_interpreter .standard 1 gathered steady
  have told := ((refined.1 7 (by rw [six]; decide)).2 idle).2.1
  have alike := refined.2 scattered alsoSteady (by decide +kernel) idle (by decide +kernel)
  exact ⟨steady, alsoSteady, six, told, alike.1, alike.2.1⟩

end History
end Turtle
