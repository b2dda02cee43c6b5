import Mathlib.Data.List.Forall2
import Turtle.Proofs.Coherence

/-! The events of a run, command by command.
Every command that has come to its end is told of in one block of events, and the blocks follow one
another in the order in which the lines were accepted. A block ends with the first event that can
end one, so the events alone show where one command stops and the next begins. -/
namespace Turtle

namespace Command

/-- The failures that a command can end in. -/
inductive Fails : Command → Failure → Prop where
  | spawn (name : String) (capacity : Nat) : Fails (.spawn name) (.poolExhausted name capacity)
  | query (into actor : String) : Fails (.query into actor) (.unknownActor actor)
  | move (actor : String) (distance : Single) : Fails (.move actor distance) (.unknownActor actor)
  | stranger (actor operand : String) : Fails (.malformedMove actor operand) (.unknownActor actor)
  | operand (actor operand : String) :
      Fails (.malformedMove actor operand) (.invalidDistance actor operand)
  | unrecognized (line : String) : Fails (.unrecognized line) (.unrecognized line)

/-- What is told of a command that has come to its end. -/
inductive Report : Command → List Event → Prop where
  | spawned (name : String) (slot : Slot) (position : Vec) :
      Report (.spawn name) [.spawned name slot position, .idling name slot]
  | answered (into actor : String) (position : Vec) :
      Report (.query into actor) [.readBack into position]
  | moved (actor : String) (distance : Single) (stops : List Vec) (goal : Vec) :
      Report (.move actor distance)
        (.moveStarted actor distance :: (stops.map (.moveStepped actor) ++
          [.moveCompleted actor goal]))
  | failed {c : Command} (failure : Failure) : c.Fails failure → Report c [.failed failure]

/-- What is told of a move that goes on. -/
inductive Opening : Command → List Event → Prop where
  | moving (actor : String) (distance : Single) (stops : List Vec) :
      stops ≠ [] →
      Opening (.move actor distance) (.moveStarted actor distance :: stops.map (.moveStepped actor))

end Command

/-- Events cut into finished blocks, one after the other, and what is told of a move that goes on,
if there is one. -/
structure Split (events : List Event) (blocks : List (List Event)) (rest : List Event) :
    Prop where
  whole : events = blocks.flatten ++ rest
  finished : ∀ block ∈ blocks, ∃ c : Command, c.Report block
  unfinished : rest = [] ∨ ∃ c : Command, c.Opening rest

/-- The events that end what is told of a command. -/
def Event.closes : Event → Bool
  | spawned _ _ _ => false
  | moveStarted _ _ => false
  | moveStepped _ _ => false
  | idling _ _ => true
  | moveCompleted _ _ => true
  | readBack _ _ => true
  | failed _ => true

def Open (events : List Event) : Prop := ∀ event ∈ events, event.closes = false

/-- Events of which the last one closes, and no other. -/
def Closed (block : List Event) : Prop :=
  ∃ before last, block = before ++ [last] ∧ Open before ∧ last.closes = true

theorem open_stops (actor : String) (distance : Single) (stops : List Vec) :
    Open (.moveStarted actor distance :: stops.map (.moveStepped actor)) := by
  intro event told
  rcases List.mem_cons.mp told with rfl | told
  · rfl
  · obtain ⟨stop, _, rfl⟩ := List.mem_map.mp told
    rfl

theorem Command.Report.closed {c : Command} {block : List Event} (report : c.Report block) :
    Closed block := by
  cases report with
  | spawned name slot position =>
    exact ⟨[.spawned name slot position], _, rfl, List.forall_mem_singleton.mpr rfl, rfl⟩
  | answered into actor position => exact ⟨[], _, rfl, List.forall_mem_nil _, rfl⟩
  | moved actor distance stops goal => exact ⟨_, _, rfl, open_stops actor distance stops, rfl⟩
  | failed failure _ => exact ⟨[], _, rfl, List.forall_mem_nil _, rfl⟩

theorem Command.Opening.isOpen {c : Command} {rest : List Event} (opening : c.Opening rest) :
    Open rest := by
  cases opening with
  | moving actor distance stops _ => exact open_stops actor distance stops

theorem Open.takeWhile_append {before : List Event} (opens : Open before) {last : Event}
    (ends : last.closes = true) (rest : List Event) :
    (before ++ last :: rest).takeWhile (fun event => !event.closes) = before := by
  have all : ∀ event ∈ before, (!event.closes) = true := by
    intro event told
    rw [opens event told]
    rfl
  rw [List.takeWhile_append_of_pos all, List.takeWhile_cons_of_neg (by rw [ends]; decide),
    List.append_nil]

theorem Closed.append_inj {block other rest tail : List Event} (closed : Closed block)
    (also : Closed other) (same : block ++ rest = other ++ tail) :
    block = other ∧ rest = tail := by
  obtain ⟨before, last, rfl, opens, ends⟩ := closed
  obtain ⟨earlier, final, rfl, quiet, stops⟩ := also
  rw [List.append_assoc, List.append_assoc] at same
  have cut : before = earlier := by
    rw [← opens.takeWhile_append ends rest, ← quiet.takeWhile_append stops tail]
    exact congrArg _ same
  subst cut
  obtain ⟨rfl, rfl⟩ := List.cons.inj (List.append_cancel_left same)
  exact ⟨rfl, rfl⟩

theorem Closed.append_ne {block rest events : List Event} (closed : Closed block)
    (opens : Open events) : block ++ rest ≠ events := by
  rintro rfl
  obtain ⟨before, last, rfl, _, ends⟩ := closed
  have quiet := opens last (by simp)
  rw [ends] at quiet
  cases quiet

theorem flatten_append_inj {blocks others : List (List Event)} {rest tail : List Event}
    (closed : ∀ block ∈ blocks, Closed block) (opens : Open rest)
    (also : ∀ block ∈ others, Closed block) (quiet : Open tail)
    (same : blocks.flatten ++ rest = others.flatten ++ tail) : blocks = others ∧ rest = tail := by
  -- The first event that closes ends the first block on both sides, if either side has a block.
  induction blocks generalizing others with
  | nil =>
    cases others with
    | nil => exact ⟨rfl, same⟩
    | cons other others =>
      rw [List.flatten_cons, List.append_assoc] at same
      exact absurd same.symm ((also other List.mem_cons_self).append_ne opens)
  | cons block blocks ih =>
    obtain ⟨first, closed⟩ := List.forall_mem_cons.mp closed
    rw [List.flatten_cons, List.append_assoc] at same
    cases others with
    | nil => exact absurd same (first.append_ne quiet)
    | cons other others =>
      obtain ⟨second, later⟩ := List.forall_mem_cons.mp also
      rw [List.flatten_cons, List.append_assoc] at same
      obtain ⟨heads, tails⟩ := first.append_inj second same
      obtain ⟨more, last⟩ := ih closed later tails
      exact ⟨by rw [heads, more], last⟩

namespace Split

variable {events rest tail : List Event} {blocks others : List (List Event)}

theorem closed (split : Split events blocks rest) : ∀ block ∈ blocks, Closed block := by
  intro block member
  obtain ⟨c, report⟩ := split.finished block member
  exact report.closed

theorem isOpen (split : Split events blocks rest) : Open rest := by
  rcases split.unfinished with rfl | ⟨c, opening⟩
  · exact List.forall_mem_nil _
  · exact opening.isOpen

/-- The events alone show how they are cut. -/
theorem unique (split : Split events blocks rest) (again : Split events others tail) :
    others = blocks ∧ tail = rest :=
  flatten_append_inj again.closed again.isOpen split.closed split.isOpen
    (again.whole.symm.trans split.whole)

end Split

namespace Stage

variable {s : Stage} {dt : Single}

/-- The first tick of a command tells all of it, or else that its move goes on. -/
theorem perform_reports (bound : s.Bound) (dt : Single) (c : Command) :
    ((s.perform dt c).underway = none ∧ c.Report (s.perform dt c).events) ∨
    ∃ move distance stop, c = .move move.name distance ∧
      (s.perform dt c).underway = some move ∧
      (s.perform dt c).events
        = [.moveStarted move.name distance, .moveStepped move.name stop] := by
  cases c with
  | spawn name =>
    refine .inl ?_
    rw [perform, spawn]
    split
    · exact ⟨rfl, .failed _ (.spawn name _)⟩
    · exact ⟨rfl, .spawned name _ _⟩
  | query into name =>
    rw [perform]
    cases found : s.actors.find? name with
    | none =>
      rw [query_of_unbound found]
      exact .inl ⟨rfl, .failed _ (.query into name)⟩
    | some slot =>
      obtain ⟨actor, held⟩ := Option.isSome_iff_exists.mp (bound name slot found)
      rw [query_of_get? found held]
      exact .inl ⟨rfl, .answered into name _⟩
  | move name distance =>
    rw [perform]
    cases found : s.actors.find? name with
    | none =>
      rw [move_of_unbound found]
      exact .inl ⟨rfl, .failed _ (.move name distance)⟩
    | some slot =>
      obtain ⟨actor, held⟩ := Option.isSome_iff_exists.mp (bound name slot found)
      rw [move_of_get? found held]
      cases status : ((actor.setOff distance s.rules.speed).step dt).2 with
      | running =>
        rw [depart_of_running status]
        exact .inr ⟨⟨slot, name⟩, distance, _, rfl, rfl, rfl⟩
      | complete =>
        rw [depart_of_complete status]
        exact .inl ⟨rfl, .moved name distance [] _⟩
  | malformedMove name operand =>
    refine .inl ?_
    rw [perform, rejectMove]
    split
    · exact ⟨rfl, .failed _ (.stranger name operand)⟩
    · exact ⟨rfl, .failed _ (.operand name operand)⟩
  | unrecognized line => exact .inl ⟨rfl, .failed _ (.unrecognized line)⟩

end Stage

namespace History

/-- How far a run has got with its lines once some of them are done, and what is told beyond these:
nothing is going on, or a move has been told of in part. -/
inductive Phase (h : History) (done : List String) : List Event → Prop where
  | resting : h.scheduler.underway = none → h.accepted = done ++ h.scheduler.queue → Phase h done []
  | midway (line : String) (move : Underway) (distance : Single) (stops : List Vec) :
      h.scheduler.underway = some move → h.accepted = done ++ line :: h.scheduler.queue →
      Command.ofLine line = .move move.name distance → stops ≠ [] →
      Phase h done (.moveStarted move.name distance :: stops.map (.moveStepped move.name))

/-- The lines that are done have one block each, in order. -/
structure Tells (h : History) (done : List String) (blocks : List (List Event))
    (rest : List Event) : Prop where
  emitted : h.emitted = blocks.flatten ++ rest
  reported : List.Forall₂ (fun line block => (Command.ofLine line).Report block) done blocks
  completed : h.scheduler.completed = min blocks.length (twoTo 64 - 1)
  phase : Phase h done rest

variable {permitted : Single → Prop} {rules : Rules} {h : History} {dt : Single}
  {done : List String} {blocks : List (List Event)} {rest : List Event}

theorem tells_ofRules (rules : Rules) : (ofRules rules).Tells [] [] [] where
  emitted := rfl
  reported := .nil
  completed := (Nat.zero_min _).symm
  phase := .resting rfl rfl

theorem Tells.submit (tells : h.Tells done blocks rest) (line : String) :
    (h.submit line).Tells done blocks rest := by
  have queued (before : List String) (same : h.accepted = before ++ h.scheduler.queue) :=
    accepted_submit same line
  rw [h.submit_eq] at queued ⊢
  refine ⟨tells.emitted, tells.reported, tells.completed, ?_⟩
  cases tells.phase with
  | resting free waiting => exact .resting free (queued _ waiting)
  | midway first move distance stops busy waiting reads proper =>
    refine .midway first move distance stops busy ?_ reads proper
    have all := queued (done ++ [first]) (waiting.trans (List.append_cons _ _ _))
    exact all.trans (List.append_cons _ _ _).symm

/-- A line that comes to its end adds a block. -/
theorem Tells.finish (tells : h.Tells done blocks rest) {line : String} {outcome : Outcome}
    {queue : List String} (waiting : h.accepted = done ++ line :: queue)
    (free : outcome.underway = none)
    (report : (Command.ofLine line).Report (rest ++ outcome.events)) :
    Tells ⟨{ h.scheduler with queue := queue }.conclude outcome, h.accepted,
      h.emitted ++ outcome.events⟩ (done ++ [line]) (blocks ++ [rest ++ outcome.events]) [] where
  emitted := by simp [tells.emitted]
  reported := List.rel_append tells.reported (.cons report .nil)
  completed := by
    have more : countUp h.scheduler.completed
        = min (blocks ++ [rest ++ outcome.events]).length (twoTo 64 - 1) := by
      rw [List.length_append, List.length_singleton, tells.completed, countUp_min]
    exact (if_neg (by rw [free]; decide)).trans more
  phase := .resting free (waiting.trans (List.append_cons _ _ _))

/-- A line that goes on adds to what is told beyond the blocks. -/
theorem Tells.extend (tells : h.Tells done blocks rest) {line : String} {outcome : Outcome}
    {queue : List String} {move : Underway} {distance : Single} (stops : List Vec)
    (waiting : h.accepted = done ++ line :: queue) (busy : outcome.underway = some move)
    (reads : Command.ofLine line = .move move.name distance) (proper : stops ≠ [])
    (told : rest ++ outcome.events
      = .moveStarted move.name distance :: stops.map (.moveStepped move.name)) :
    Tells ⟨{ h.scheduler with queue := queue }.conclude outcome, h.accepted,
      h.emitted ++ outcome.events⟩ done blocks (rest ++ outcome.events) where
  emitted := by simp [tells.emitted]
  reported := tells.reported
  completed := (if_pos (by rw [busy]; rfl)).trans tells.completed
  phase := by
    rw [told]
    exact .midway line move distance stops busy waiting reads proper

theorem Tells.start (tells : h.Tells done blocks rest) (coherent : h.scheduler.Coherent)
    {line : String} {queue : List String} (free : h.scheduler.underway = none)
    (queued : h.scheduler.queue = line :: queue) (dt : Single) :
    ∃ done blocks rest, (h.tick dt).Tells done blocks rest := by
  cases tells.phase with
  | midway _ move _ _ busy => cases free.symm.trans busy
  | resting _ waiting =>
    rw [queued] at waiting
    obtain ⟨next, emitted⟩ := Scheduler.tick_of_line free queued dt
    unfold tick
    rw [next, emitted]
    rcases Stage.perform_reports (Stage.Coherent.boundInUse coherent) dt (.ofLine line) with
      ⟨ends, report⟩ | ⟨move, distance, stop, reads, busy, told⟩
    · exact ⟨_, _, _, tells.finish waiting ends report⟩
    · exact ⟨_, _, _, tells.extend [stop] waiting busy reads (by simp) told⟩

theorem Tells.resume (tells : h.Tells done blocks rest) (coherent : h.scheduler.Coherent)
    {move : Underway} (busy : h.scheduler.underway = some move) (dt : Single) :
    ∃ done blocks rest, (h.tick dt).Tells done blocks rest := by
  cases tells.phase with
  | resting free _ => cases free.symm.trans busy
  | midway line same distance stops under waiting reads proper =>
    cases busy.symm.trans under
    obtain ⟨actor, _, found, _⟩ := (Stage.Coherent.resumes coherent move busy).2
    obtain ⟨next, emitted⟩ := Scheduler.tick_of_move busy dt
    unfold tick
    rw [next, emitted, Stage.resume_of_get? found]
    cases (actor.step dt).2 with
    | running =>
      refine ⟨_, _, _, tells.extend (stops ++ [(actor.step dt).1.position]) waiting rfl reads
        (by simp) ?_⟩
      simp [Stage.stepped]
    | complete =>
      refine ⟨_, _, _, tells.finish waiting rfl ?_⟩
      rw [reads]
      exact .moved move.name distance stops _

theorem Reached.tells (reached : Reached permitted rules h) :
    ∃ done blocks rest, h.Tells done blocks rest := by
  induction reached with
  | start => exact ⟨[], [], [], tells_ofRules rules⟩
  | submit line _ ih =>
    obtain ⟨done, blocks, rest, tells⟩ := ih
    exact ⟨done, blocks, rest, tells.submit line⟩
  | @tick h dt earlier _ ih =>
    obtain ⟨done, blocks, rest, tells⟩ := ih
    cases busy : h.scheduler.underway with
    | some move => exact tells.resume earlier.coherent busy dt
    | none =>
      cases queued : h.scheduler.queue with
      | cons line queue => exact tells.start earlier.coherent busy queued dt
      | nil =>
        obtain ⟨still, silent⟩ := Scheduler.tick_of_rest busy queued dt
        refine ⟨done, blocks, rest, ?_⟩
        unfold History.tick
        rw [still, silent, List.append_nil]
        exact tells
  | drain _ ih =>
    obtain ⟨done, blocks, rest, tells⟩ := ih
    refine ⟨done, blocks, rest, tells.emitted, tells.reported, tells.completed, ?_⟩
    cases tells.phase with
    | resting free waiting => exact .resting free waiting
    | midway line move distance stops busy waiting reads proper =>
      exact .midway line move distance stops busy waiting reads proper

/-- The account that the events of a run give of its lines: each line that is done has one block, in
order, the current line has what is told beyond the blocks, and all later lines wait. -/
structure Account (h : History) (blocks : List (List Event)) (rest : List Event)
    (done : List String) (current : Option String) : Prop where
  split : Split h.emitted blocks rest
  accepted : h.accepted = done ++ current.toList ++ h.scheduler.queue
  reported : List.Forall₂ (fun line block => (Command.ofLine line).Report block) done blocks
  opening : ∀ line, current = some line → (Command.ofLine line).Opening rest
  busy : current.isSome = h.scheduler.isBusy
  unfinished : rest ≠ [] ↔ h.scheduler.isBusy = true
  completed : h.scheduler.completed = min blocks.length (twoTo 64 - 1)

theorem finished_of_reported
    (reported : List.Forall₂ (fun line block => (Command.ofLine line).Report block) done blocks) :
    ∀ block ∈ blocks, ∃ c : Command, c.Report block := by
  induction reported with
  | nil => exact List.forall_mem_nil _
  | cons report _ ih => exact List.forall_mem_cons.mpr ⟨⟨_, report⟩, ih⟩

theorem Tells.account (tells : h.Tells done blocks rest) :
    ∃ current, h.Account blocks rest done current := by
  have finished := finished_of_reported tells.reported
  cases tells.phase with
  | resting free waiting =>
    refine ⟨none, ⟨tells.emitted, finished, .inl rfl⟩, by simpa using waiting, tells.reported,
      ?_, ?_, ?_, tells.completed⟩
    · intro line impossible
      cases impossible
    · rw [Scheduler.isBusy, free]
      rfl
    · simp [Scheduler.isBusy, free]
  | midway line move distance stops busy waiting reads proper =>
    have opening : (Command.ofLine line).Opening
        (.moveStarted move.name distance :: stops.map (.moveStepped move.name)) := by
      rw [reads]
      exact .moving move.name distance stops proper
    refine ⟨some line, ⟨tells.emitted, finished, .inr ⟨_, opening⟩⟩, by simpa using waiting,
      tells.reported, ?_, ?_, ?_, tells.completed⟩
    · intro other same
      cases same
      exact opening
    · rw [Scheduler.isBusy, busy]
      rfl
    · simp [Scheduler.isBusy, busy]

theorem Account.length_accepted {current : Option String}
    (account : h.Account blocks rest done current) :
    h.accepted.length
      = blocks.length + (if h.scheduler.isBusy then 1 else 0) + h.scheduler.queue.length := by
  rw [account.accepted, List.length_append, List.length_append, account.reported.length_eq,
    ← account.busy]
  cases current <;> rfl

/-- However a scheduler is driven, its events split in one way only into blocks, one for each line
that is done, in the order of acceptance, and what is told of a move that goes on, which is there
exactly while the scheduler is busy. So no line is lost: it is done, or current, or waiting. -/
theorem emitted_splits (rules : Rules) (list : List Act) :
    let h := (ofRules rules).acts list
    (∃ blocks rest done current, h.Account blocks rest done current ∧
      ∀ others tail, Split h.emitted others tail → others = blocks ∧ tail = rest) ∧
    (h.accepted.length < twoTo 64 →
      h.accepted.length = h.scheduler.completed + (if h.scheduler.isBusy then 1 else 0)
        + h.scheduler.queue.length) := by
  intro h
  obtain ⟨done, blocks, rest, tells⟩ := (reached_acts rules list).tells
  obtain ⟨current, account⟩ := tells.account
  refine ⟨⟨blocks, rest, done, current, account, fun _ _ => account.split.unique⟩, ?_⟩
  intro few
  have count := account.length_accepted
  have part : blocks.length ≤ h.accepted.length := by
    rw [count, Nat.add_assoc]
    exact Nat.le_add_right _ _
  rw [account.completed, Nat.min_eq_left (Nat.le_sub_one_of_lt (Nat.lt_of_le_of_lt part few))]
  exact count

end History
end Turtle
