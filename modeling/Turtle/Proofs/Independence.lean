import Turtle.Proofs.Coherence
import Turtle.Proofs.Interpreter

/-! Commands that have nothing to do with each other.
A command of an actor in use takes as many ticks as it would alone and leaves one thing behind: its
actor in another place, or a value in a variable. Both are decided by that actor and by the rules.
So two commands of which neither looks at what the other leaves may change places. -/
namespace Turtle

namespace Command

/-- The actor of a move or a query. -/
def actor? : Command → Option String
  | .move name _ => some name
  | .query _ name => some name
  | _ => none

/-- Moves of two actors, a move of one actor and a query of another, or queries into two
variables. -/
def Apart : Command → Command → Prop
  | .move name _, .move other _ => name ≠ other
  | .move name _, .query _ other => name ≠ other
  | .query _ name, .move other _ => name ≠ other
  | .query into _, .query other _ => into ≠ other
  | _, _ => False

variable {c d : Command} {name other : String} {distance : Single}

theorem Apart.symm (apart : c.Apart d) : d.Apart c := by
  unfold Apart at apart
  split at apart
  · exact Ne.symm apart
  · exact Ne.symm apart
  · exact Ne.symm apart
  · exact Ne.symm apart
  · exact apart.elim

theorem Apart.ne_of_move (apart : (Command.move name distance).Apart d)
    (about : d.actor? = some other) : name ≠ other := by
  cases d with
  | move actor far =>
    cases about
    exact apart
  | query into actor =>
    cases about
    exact apart
  | spawn actor => cases about
  | malformedMove actor operand => cases about
  | unrecognized line => cases about

end Command

/-- What a command leaves behind. -/
inductive Effect where
  | place (slot : Slot) (actor : Actor)
  | record (into : String) (position : Vec)

def Effect.Apart : Effect → Effect → Prop
  | place slot _, place other _ => slot ≠ other
  | record into _, record other _ => into ≠ other
  | _, _ => True

/-- The same values under the same names, in whatever order they were bound. -/
structure Bindings.Alike {α : Type} (b c : Bindings α) : Prop where
  find : ∀ name, b.find? name = c.find? name
  size : b.size = c.size

theorem Bindings.bind_comm {α : Type} (b : Bindings α) {name other : String} (apart : name ≠ other)
    (value another : α) :
    ((b.bind name value).bind other another).Alike ((b.bind other another).bind name value) where
  find key := by
    simp only [find?_bind]
    by_cases hit : key = name
    · subst hit
      rw [if_pos rfl, if_neg apart, if_pos rfl]
    · rw [if_neg hit, if_neg hit]
  size := by
    simp only [size_bind, find?_bind, if_neg apart, if_neg apart.symm]
    split <;> split <;> rfl

namespace Stage

def apply (s : Stage) : Effect → Stage
  | .place slot actor => { s with pool := s.pool.set slot actor }
  | .record into position => { s with positions := s.positions.bind into position }

structure Alike (s t : Stage) : Prop where
  rules : s.rules = t.rules
  pool : s.pool = t.pool
  actors : s.actors = t.actors
  positions : s.positions.Alike t.positions

theorem apply_comm (s : Stage) {e f : Effect} (apart : e.Apart f) :
    ((s.apply e).apply f).Alike ((s.apply f).apply e) := by
  cases e with
  | place slot actor =>
    cases f with
    | place other another =>
      refine ⟨rfl, ?_, rfl, ⟨fun _ => rfl, rfl⟩⟩
      exact congrArg Pool.mk (List.set_comm actor another apart)
    | record other another => exact ⟨rfl, rfl, rfl, ⟨fun _ => rfl, rfl⟩⟩
  | record into position =>
    cases f with
    | place other another => exact ⟨rfl, rfl, rfl, ⟨fun _ => rfl, rfl⟩⟩
    | record other another =>
      exact ⟨rfl, rfl, rfl, s.positions.bind_comm apart position another⟩

/-- A move or a query of an actor in use. -/
def Knows (s : Stage) (c : Command) : Prop :=
  ∃ name slot, c.actor? = some name ∧ s.actors.find? name = some slot

/-- How many ticks a command of an actor in use takes, and what it leaves behind. -/
inductive Errand (s : Stage) (dt : Single) : Command → Nat → Effect → Prop where
  | walk (name : String) (distance : Single) (slot : Slot) (actor : Actor) (patience : Nat)
      (trip : Trip) :
      s.actors.find? name = some slot → s.pool.get? slot = some actor →
      (actor.setOff distance s.rules.speed).travel name dt patience = trip →
      trip.status = .complete →
      Errand s dt (.move name distance) trip.events.length (.place slot trip.actor)
  | look (into name : String) (slot : Slot) (actor : Actor) :
      s.actors.find? name = some slot → s.pool.get? slot = some actor →
      Errand s dt (.query into name) 1 (.record into actor.position)

variable {s t : Stage} {dt : Single} {c d : Command} {m n : Nat} {e f : Effect}

/-- An errand looks at nothing but its actor and the rules. -/
theorem Errand.of_kept (errand : s.Errand dt c n e) (rules : t.rules = s.rules)
    (actors : t.actors = s.actors)
    (kept : ∀ name slot, c.actor? = some name → s.actors.find? name = some slot →
      t.pool.get? slot = s.pool.get? slot) : t.Errand dt c n e := by
  cases errand with
  | walk name distance slot actor patience trip bound found goes ends =>
    rw [← rules] at goes
    rw [← kept name slot rfl bound] at found
    rw [← actors] at bound
    exact .walk name distance slot actor patience trip bound found goes ends
  | look into name slot actor bound found =>
    rw [← kept name slot rfl bound] at found
    rw [← actors] at bound
    exact .look into name slot actor bound found

theorem Knows.accepts {line : String} (knows : s.Knows (.ofLine line)) :
    Scheduler.accepts line = true := by
  obtain ⟨name, _, about, _⟩ := knows
  have recognized : Command.ofLine line ≠ .unrecognized line := by
    intro whole
    rw [whole] at about
    cases about
  exact Scheduler.accepts_of_mem (Command.closes_of_recognized recognized) (by decide)

variable {underway : Option Underway}

theorem Coherent.slot_ne (coherent : s.Coherent underway) {name other : String} {slot place : Slot}
    (apart : name ≠ other) (one : s.actors.find? name = some slot)
    (another : s.actors.find? other = some place) : slot ≠ place := by
  rintro rfl
  exact apart (coherent.distinct one another)

/-- An errand comes to the same after another one that is apart from it. -/
theorem Errand.after (errand : s.Errand dt d n f) (earlier : s.Errand dt c m e)
    (coherent : s.Coherent underway) (apart : c.Apart d) : (s.apply e).Errand dt d n f := by
  cases earlier with
  | walk name distance slot actor patience trip bound found goes ends =>
    refine errand.of_kept rfl rfl fun other place about elsewhere => ?_
    have distinct := coherent.slot_ne (apart.ne_of_move about) bound elsewhere
    have active : trip.actor.active = true := by
      rw [← goes, Actor.travel_active]
      exact active_setOff found _ _
    exact (Pool.get?_set (Pool.lt_capacity_of_get? found) active place).trans
      (if_neg distinct.symm)
  | look into name slot actor bound found => exact errand.of_kept rfl rfl fun _ _ _ _ => rfl

theorem Errand.effects_apart (one : s.Errand dt c m e) (another : s.Errand dt d n f)
    (coherent : s.Coherent underway) (apart : c.Apart d) : e.Apart f := by
  cases one with
  | walk name distance slot actor patience trip bound found goes ends =>
    cases another with
    | walk other far place second tries tour elsewhere there travels arrives =>
      exact coherent.slot_ne apart bound elsewhere
    | look into other place second elsewhere there => exact trivial
  | look into name slot actor bound found =>
    cases another with
    | walk other far place second tries tour elsewhere there travels arrives => exact trivial
    | look onto other place second elsewhere there => exact apart

end Stage

namespace Scheduler

/-- A move of an actor is under way. -/
structure Walks (s : Scheduler) (name : String) (slot : Slot) (actor : Actor) : Prop where
  busy : s.underway = some ⟨slot, name⟩
  found : s.stage.pool.get? slot = some actor

variable {s : Scheduler} {dt : Single} {name line : String} {slot : Slot} {actor : Actor}
  {rest : List String} {n patience : Nat}

theorem Walks.isIdle (walks : s.Walks name slot actor) : s.isIdle = false := by
  simp [Scheduler.isIdle, isBusy, walks.busy]

theorem Walks.tick_of_complete (walks : s.Walks name slot actor)
    (ends : (actor.step dt).2 = .complete) :
    s.tick dt = ⟨s.stage.apply (.place slot (actor.step dt).1), s.queue, none,
      s.outbox.push (.moveCompleted name (actor.step dt).1.position), countUp s.completed⟩ := by
  rw [(tick_of_move walks.busy dt).1, Stage.resume_of_get? walks.found, ends]
  rfl

theorem Walks.tick_of_running (walks : s.Walks name slot actor)
    (goesOn : (actor.step dt).2 = .running) :
    s.tick dt = { s with
      stage := s.stage.apply (.place slot (actor.step dt).1)
      outbox := s.outbox.push (.moveStepped name (actor.step dt).1.position) } := by
  rw [(tick_of_move walks.busy dt).1, Stage.resume_of_get? walks.found, goesOn]
  obtain ⟨stage, queue, underway, outbox, completed⟩ := s
  cases walks.busy
  rfl

theorem Walks.goesOn (walks : s.Walks name slot actor) (goesOn : (actor.step dt).2 = .running) :
    (s.tick dt).Walks name slot (actor.step dt).1 := by
  rw [walks.tick_of_running goesOn]
  have active := Stage.active_step walks.found dt
  exact ⟨walks.busy, Pool.get?_set_self (Pool.lt_capacity_of_get? walks.found) active⟩

/-- A move under way takes one tick for each event of the rest of its trip. -/
theorem Walks.leads (walks : s.Walks name slot actor) {trip : Trip}
    (goes : actor.travel name dt patience = trip) (ends : trip.status = .complete) :
    s.Leads dt trip.events.length ⟨s.stage.apply (.place slot trip.actor), s.queue, none,
      s.outbox.pushAll trip.events, countUp s.completed⟩ := by
  induction patience generalizing s actor trip with
  | zero =>
    cases goes
    cases ends
  | succ patience ih =>
    cases status : (actor.step dt).2 with
    | complete =>
      rw [Actor.travel_succ_of_complete patience status] at goes
      cases goes
      refine .of_tick walks.isIdle ?_
      rw [walks.tick_of_complete status]
      exact .refl _ dt
    | running =>
      rw [Actor.travel_succ_of_running patience status] at goes
      cases goes
      refine .of_tick walks.isIdle ?_
      have later := ih (walks.goesOn status) rfl ends
      rw [walks.tick_of_running status] at later ⊢
      simp only [Stage.apply, Pool.set_set] at later ⊢
      exact later

/-- A move that is over after some ticks has come to the end of its trip. -/
theorem Walks.complete (walks : s.Walks name slot actor) (idle : (s.ticks dt n).isIdle = true) :
    (actor.travel name dt n).status = .complete := by
  induction n generalizing s actor with
  | zero => cases walks.isIdle.symm.trans idle
  | succ n ih =>
    cases status : (actor.step dt).2 with
    | complete => rw [Actor.travel_succ_of_complete n status]
    | running =>
      rw [Actor.travel_succ_of_running n status]
      exact ih (walks.goesOn status) idle

/-- The scheduler as if the move of its first line were under way already. -/
def setOut (s : Scheduler) (rest : List String) (move : Underway) (distance : Single)
    (actor : Actor) : Scheduler :=
  { s with
    stage := s.stage.apply (.place move.slot (actor.setOff distance s.stage.rules.speed))
    queue := rest
    underway := some move
    outbox := s.outbox.push (.moveStarted move.name distance) }

theorem walks_setOut (found : s.stage.pool.get? slot = some actor) (rest : List String)
    (name : String) (distance : Single) :
    (s.setOut rest ⟨slot, name⟩ distance actor).Walks name slot
      (actor.setOff distance s.stage.rules.speed) := by
  have active := Stage.active_setOff found distance s.stage.rules.speed
  exact ⟨rfl, Pool.get?_set_self (Pool.lt_capacity_of_get? found) active⟩

theorem tick_setOut {distance : Single} (free : s.underway = none) (queued : s.queue = line :: rest)
    (moves : Command.ofLine line = .move name distance)
    (bound : s.stage.actors.find? name = some slot)
    (found : s.stage.pool.get? slot = some actor) (dt : Single) :
    s.tick dt = (s.setOut rest ⟨slot, name⟩ distance actor).tick dt := by
  have walks := walks_setOut found rest name distance
  rw [(tick_of_line free queued dt).1, (tick_of_move walks.busy dt).1, moves]
  simp only [Stage.perform, Stage.move, Stage.slotOf?_of_get? bound found,
    Pool.update_of_get? found]
  rfl

/-- A line that is next takes as many ticks as its errand, whatever lines wait behind it. -/
theorem leads_of_errand {e : Effect} (free : s.underway = none) (queued : s.queue = line :: rest)
    (errand : s.stage.Errand dt (.ofLine line) n e) :
    ∃ outbox, s.Leads dt n ⟨s.stage.apply e, rest, none, outbox, countUp s.completed⟩ := by
  have busy : s.isIdle = false := by simp [isIdle, queued]
  generalize read : Command.ofLine line = c at errand
  cases errand with
  | walk name distance slot actor patience trip bound found goes ends =>
    have walks := walks_setOut found rest name distance
    have leads := walks.leads goes ends
    have some : 0 < trip.events.length := by
      apply Nat.pos_of_ne_zero
      intro none
      have still := leads.ticks
      rw [none] at still
      cases congrArg underway still
    have whole := leads.of_tick_eq (tick_setOut free queued read bound found dt) busy some
    simp only [setOut, Stage.apply, Pool.set_set] at whole
    exact ⟨_, whole⟩
  | look into name slot actor bound found =>
    refine ⟨s.outbox.push (.readBack into actor.position), .of_tick busy ?_⟩
    rw [(tick_of_line free queued dt).1, read]
    simp only [Stage.perform, Stage.query_of_get? bound found]
    exact .refl _ dt

theorem errand_of_isIdle {distance : Single} (free : s.underway = none)
    (queued : s.queue = line :: rest) (moves : Command.ofLine line = .move name distance)
    (bound : s.stage.actors.find? name = some slot)
    (found : s.stage.pool.get? slot = some actor) (idle : (s.ticks dt n).isIdle = true) :
    ∃ k e, s.stage.Errand dt (.move name distance) k e := by
  cases n with
  | zero => cases queued.symm.trans (s.isIdle_iff.mp idle).2
  | succ n =>
    have walks := walks_setOut found rest name distance
    rw [ticks, tick_setOut free queued moves bound found dt] at idle
    exact ⟨_, _, .walk name distance slot actor (n + 1) _ bound found rfl (walks.complete idle)⟩

theorem submit_of_accepts (accepted : accepts line = true) :
    (s.submit line).2 = { s with queue := s.queue ++ [line] } := by
  simp only [submit_eq, accepted, if_true]

/-- If the line is a move, then alone it comes to its end. -/
def Completes (s : Scheduler) (dt : Single) (line : String) : Prop :=
  ∀ name distance, Command.ofLine line = .move name distance →
    ∃ n, ((s.submit line).2.ticks dt n).isIdle = true

theorem Completes.exists_errand (completes : s.Completes dt line) (bound : s.stage.Bound)
    (idle : s.isIdle = true) (knows : s.stage.Knows (.ofLine line)) :
    ∃ n e, s.stage.Errand dt (.ofLine line) n e := by
  have accepted := knows.accepts
  obtain ⟨name, slot, about, named⟩ := knows
  obtain ⟨actor, found⟩ := Option.isSome_iff_exists.mp (bound name slot named)
  obtain ⟨free, empty⟩ := s.isIdle_iff.mp idle
  generalize read : Command.ofLine line = c at about ⊢
  cases c with
  | query into other =>
    cases about
    exact ⟨1, _, .look into name slot actor named found⟩
  | move other distance =>
    cases about
    obtain ⟨n, done⟩ := completes name distance read
    rw [submit_of_accepts accepted, empty] at done
    exact errand_of_isIdle (s := { s with queue := [line] }) free rfl read named found done
  | spawn other => cases about
  | malformedMove other operand => cases about
  | unrecognized text => cases about

/-- Two lines that are submitted together to an idle scheduler take as many ticks as their errands,
one after the other. -/
theorem runs_of_errands {one two : String} {m : Nat} {e f : Effect} (idle : s.isIdle = true)
    (accepted : accepts one = true) (also : accepts two = true)
    (first : s.stage.Errand dt (.ofLine one) m e)
    (second : (s.stage.apply e).Errand dt (.ofLine two) n f) :
    ∃ t, (∀ limit, m + n ≤ limit → ((s.submit one).2.submit two).2.run dt limit = (m + n, t)) ∧
      t.isIdle = true ∧ t.stage = (s.stage.apply e).apply f ∧
      t.completed = countUp (countUp s.completed) := by
  obtain ⟨free, empty⟩ := s.isIdle_iff.mp idle
  have queued : ((s.submit one).2.submit two).2 = { s with queue := [one, two] } := by
    rw [submit_of_accepts also, submit_of_accepts accepted, empty]
    rfl
  obtain ⟨outbox, before⟩ := leads_of_errand (s := { s with queue := [one, two] }) free rfl first
  obtain ⟨after, behind⟩ := leads_of_errand
    (s := ⟨s.stage.apply e, [two], none, outbox, countUp s.completed⟩) rfl rfl second
  refine ⟨⟨(s.stage.apply e).apply f, [], none, after, countUp (countUp s.completed)⟩,
    fun limit within => ?_, rfl, rfl, rfl⟩
  rw [queued]
  exact Runs.run_eq ⟨within, before.trans behind, fun _ => rfl⟩

/-- Two lines about actors in use that are apart from each other may be submitted to an idle
scheduler in either order. If their moves come to an end, a run takes as many ticks, and ends with
the same pool, the same names, the same variables and the same count. -/
theorem submit_comm (rules : Rules) (list : List Act) (dt : Single) (one two : String)
    (idle : ((ofRules rules).acts list).isIdle = true)
    (apart : (Command.ofLine one).Apart (.ofLine two))
    (known : ((ofRules rules).acts list).stage.Knows (.ofLine one))
    (also : ((ofRules rules).acts list).stage.Knows (.ofLine two))
    (completes : ((ofRules rules).acts list).Completes dt one)
    (ends : ((ofRules rules).acts list).Completes dt two) :
    let s := (ofRules rules).acts list
    ∃ n t u, (∀ limit, n ≤ limit → ((s.submit one).2.submit two).2.run dt limit = (n, t) ∧
        ((s.submit two).2.submit one).2.run dt limit = (n, u)) ∧
      t.isIdle = true ∧ u.isIdle = true ∧ t.stage.Alike u.stage ∧ t.completed = u.completed := by
  intro s
  have coherent : s.Coherent := coherent_acts rules list
  have bound : s.stage.Bound := Stage.Coherent.boundInUse coherent
  obtain ⟨m, e, first⟩ := completes.exists_errand bound idle known
  obtain ⟨n, f, second⟩ := ends.exists_errand bound idle also
  obtain ⟨t, runs, rest, after, count⟩ := runs_of_errands idle known.accepts also.accepts first
    (second.after first coherent apart)
  obtain ⟨u, others, still, behind, number⟩ := runs_of_errands idle also.accepts known.accepts
    second (first.after second coherent apart.symm)
  refine ⟨m + n, t, u, fun limit within => ⟨runs limit within, ?_⟩, rest, still, ?_, ?_⟩
  · rw [Nat.add_comm m n] at within ⊢
    exact others limit within
  · rw [after, behind]
    exact s.stage.apply_comm (first.effects_apart second coherent apart)
  · rw [count, number]

/-- A walk of two steps and one of a single step, of actors side by side. -/
theorem walks_change_places :
    let s := (ofRules .standard).acts [.submit "A=Turtle()", .submit "B=Turtle()", .run 1 9]
    s.isIdle = true ∧ ∃ n t u,
      (∀ limit, n ≤ limit → ((s.submit "A.fd(2)").2.submit "B.fd(1)").2.run 1 limit = (n, t) ∧
        ((s.submit "B.fd(1)").2.submit "A.fd(2)").2.run 1 limit = (n, u)) ∧
      t.isIdle = true ∧ u.isIdle = true ∧ t.stage.Alike u.stage ∧ t.completed = u.completed := by
  intro s
  have one : Command.ofLine "A.fd(2)" = .move "A" 2 := by decide +kernel
  have two : Command.ofLine "B.fd(1)" = .move "B" 1 := by decide +kernel
  have idle : s.isIdle = true := by decide +kernel
  have apart : (Command.ofLine "A.fd(2)").Apart (.ofLine "B.fd(1)") := by
    rw [one, two]
    exact (by decide : "A" ≠ "B")
  have known : s.stage.Knows (.ofLine "A.fd(2)") := ⟨"A", 0, by rw [one]; rfl, by decide +kernel⟩
  have also : s.stage.Knows (.ofLine "B.fd(1)") := ⟨"B", 1, by rw [two]; rfl, by decide +kernel⟩
  have completes : s.Completes 1 "A.fd(2)" := fun _ _ _ => ⟨2, by decide +kernel⟩
  have ends : s.Completes 1 "B.fd(1)" := fun _ _ _ => ⟨1, by decide +kernel⟩
  exact ⟨idle, submit_comm .standard _ 1 "A.fd(2)" "B.fd(1)" idle apart known also completes ends⟩

end Scheduler
end Turtle
