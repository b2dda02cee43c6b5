import Turtle.Proofs.Outcomes

/-! A sequential interpreter: it takes lines in order and carries each one to its end before it
looks at the next. It knows nothing of ticks, of a queue or of a move under way.
A move may have no end, so the interpreter is given patience, a number of steps after which it
stays with a move for good. More patience only adds to what it tells. -/
namespace Turtle

/-- A journey carried on as far as patience allows: what is told of it, the actor after it, and how
it stands. -/
structure Trip where
  events : List Event
  actor : Actor
  status : Status

def Actor.travel (name : String) (dt : Single) : (patience : Nat) → Actor → Trip
  | 0, a => ⟨[], a, .running⟩
  | patience + 1, a =>
    match a.step dt with
    | (b, .complete) => ⟨[.moveCompleted name b.position], b, .complete⟩
    | (b, .running) =>
      let trip := travel name dt patience b
      { trip with events := .moveStepped name b.position :: trip.events }

/-- A command carried to its end, or to the end of patience. -/
def Stage.conduct (s : Stage) (dt : Single) (patience : Nat) : Command → Outcome
  | .spawn name => s.spawn name
  | .query into actor => s.query into actor
  | .move name distance =>
    match (s.actors.find? name).bind fun slot => (s.pool.get? slot).map fun a => (slot, a) with
    | none => s.fail (.unknownActor name)
    | some (slot, actor) =>
      let trip := (actor.setOff distance s.rules.speed).travel name dt patience
      { stage := { s with pool := s.pool.set slot trip.actor }
        events := .moveStarted name distance :: trip.events
        underway := if trip.status = .complete then none else some ⟨slot, name⟩ }
  | .malformedMove name operand => s.rejectMove name operand
  | .unrecognized line => s.fail (.unrecognized line)

/-- What the interpreter has done so far, and the move it stays with, if it has lost patience. -/
structure Transcript where
  stage : Stage
  events : List Event
  underway : Option Underway
  completed : Nat

namespace Transcript

def ofRules (rules : Rules) : Transcript := ⟨.ofRules rules, [], none, 0⟩

def next (dt : Single) (patience : Nat) (t : Transcript) (line : String) : Transcript :=
  match t.underway with
  | some _ => t
  | none =>
    let outcome := t.stage.conduct dt patience (.ofLine line)
    { stage := outcome.stage
      events := t.events ++ outcome.events
      underway := outcome.underway
      completed := if outcome.underway.isSome then t.completed else t.completed + 1 }

def interpret (rules : Rules) (dt : Single) (patience : Nat) (lines : List String) : Transcript :=
  lines.foldl (next dt patience) (ofRules rules)

end Transcript

namespace Actor

variable {name : String} {dt : Single} {a b : Actor} {events : List Event}

theorem travel_succ_of_running (patience : Nat) (goesOn : (a.step dt).2 = .running) :
    a.travel name dt (patience + 1) =
      { (a.step dt).1.travel name dt patience with
        events := .moveStepped name (a.step dt).1.position ::
          ((a.step dt).1.travel name dt patience).events } := by
  rw [travel]
  generalize a.step dt = after at goesOn ⊢
  obtain ⟨b, status⟩ := after
  cases goesOn
  rfl

theorem travel_succ_of_complete (patience : Nat) (ends : (a.step dt).2 = .complete) :
    a.travel name dt (patience + 1)
      = ⟨[.moveCompleted name (a.step dt).1.position], (a.step dt).1, .complete⟩ := by
  rw [travel]
  generalize a.step dt = after at ends ⊢
  obtain ⟨b, status⟩ := after
  cases ends
  rfl

/-- A journey that has gone on for some steps and is not over goes on from there. -/
theorem travel_add {steps : Nat} (going : a.travel name dt steps = ⟨events, b, .running⟩)
    (more : Nat) :
    a.travel name dt (steps + more) =
      { b.travel name dt more with events := events ++ (b.travel name dt more).events } := by
  induction steps generalizing a events with
  | zero =>
    cases going
    rw [Nat.zero_add]
    rfl
  | succ steps ih =>
    rw [Nat.succ_add]
    cases status : (a.step dt).2 with
    | complete =>
      rw [travel_succ_of_complete steps status] at going
      cases going
    | running =>
      rw [travel_succ_of_running _ status] at going ⊢
      obtain ⟨told, same, still⟩ := Trip.mk.inj going
      have shorter : (a.step dt).1.travel name dt steps
          = ⟨((a.step dt).1.travel name dt steps).events, b, .running⟩ := by rw [← same, ← still]
      rw [ih shorter, ← told]
      rfl

theorem travel_of_complete {steps : Nat} (ended : (a.travel name dt steps).status = .complete)
    (more : Nat) : a.travel name dt (steps + more) = a.travel name dt steps := by
  induction steps generalizing a with
  | zero => cases ended
  | succ steps ih =>
    rw [Nat.succ_add]
    cases status : (a.step dt).2 with
    | complete => rw [travel_succ_of_complete _ status, travel_succ_of_complete _ status]
    | running =>
      rw [travel_succ_of_running _ status] at ended ⊢
      rw [travel_succ_of_running _ status, ih ended]

theorem events_travel (name : String) (dt : Single) (steps more : Nat) (a : Actor) :
    (a.travel name dt steps).events <+: (a.travel name dt (steps + more)).events := by
  cases status : (a.travel name dt steps).status with
  | complete => simp only [travel_of_complete status, List.prefix_refl]
  | running =>
    have going : a.travel name dt steps
        = ⟨(a.travel name dt steps).events, (a.travel name dt steps).actor, .running⟩ := by
      rw [← status]
    rw [travel_add going]
    exact List.prefix_append _ _

theorem travel_active (name : String) (dt : Single) (steps : Nat) (a : Actor) :
    (a.travel name dt steps).actor.active = a.active := by
  induction steps generalizing a with
  | zero => rfl
  | succ steps ih =>
    cases status : (a.step dt).2 with
    | complete =>
      rw [travel_succ_of_complete steps status]
      exact step_active a dt
    | running =>
      rw [travel_succ_of_running steps status]
      exact (ih (a.step dt).1).trans (step_active a dt)

theorem length_travel {steps : Nat} (going : a.travel name dt steps = ⟨events, b, .running⟩) :
    events.length = steps := by
  induction steps generalizing a events with
  | zero =>
    cases going
    rfl
  | succ steps ih =>
    cases status : (a.step dt).2 with
    | complete =>
      rw [travel_succ_of_complete steps status] at going
      cases going
    | running =>
      rw [travel_succ_of_running steps status] at going
      obtain ⟨told, same, still⟩ := Trip.mk.inj going
      have shorter : (a.step dt).1.travel name dt steps
          = ⟨((a.step dt).1.travel name dt steps).events, b, .running⟩ := by rw [← same, ← still]
      rw [← told, List.length_cons, ih shorter]

end Actor

namespace Stage

/-- More patience with a command adds to what is told of it, unless the command is at its end. -/
theorem conduct_add (s : Stage) (dt : Single) (patience more : Nat) (c : Command) :
    s.conduct dt (patience + more) c = s.conduct dt patience c ∨
    ((s.conduct dt patience c).underway.isSome ∧
      (s.conduct dt patience c).events <+: (s.conduct dt (patience + more) c).events) := by
  cases c with
  | spawn name => exact .inl rfl
  | query into name => exact .inl rfl
  | malformedMove name operand => exact .inl rfl
  | unrecognized line => exact .inl rfl
  | move name distance =>
    unfold conduct
    dsimp only
    split
    · exact .inl rfl
    · rename_i slot actor _
      have longer := Actor.events_travel name dt patience more
        (actor.setOff distance s.rules.speed)
      cases status : ((actor.setOff distance s.rules.speed).travel name dt patience).status with
      | complete => exact .inl (by rw [Actor.travel_of_complete status, status])
      | running => exact .inr ⟨rfl, List.cons_prefix_cons.mpr ⟨rfl, longer⟩⟩

end Stage

namespace Transcript

variable {dt : Single} {patience : Nat}

theorem events_next (t : Transcript) (line : String) :
    t.events <+: (t.next dt patience line).events := by
  unfold next
  split
  · exact List.prefix_refl _
  · exact List.prefix_append _ _

theorem events_foldl (lines : List String) (t : Transcript) :
    t.events <+: (lines.foldl (next dt patience) t).events := by
  induction lines generalizing t with
  | nil => exact List.prefix_refl _
  | cons line lines ih => exact (t.events_next line).trans (ih _)

/-- A transcript is another one, or has lost patience where the other goes on. -/
def Behind (t u : Transcript) : Prop := u = t ∨ (t.underway.isSome ∧ t.events <+: u.events)

theorem Behind.next {t u : Transcript} (behind : t.Behind u) (more : Nat) (line : String) :
    (t.next dt patience line).Behind (u.next dt (patience + more) line) := by
  rcases behind with rfl | ⟨lost, shorter⟩
  · unfold Transcript.next
    cases u.underway with
    | some move => exact .inl rfl
    | none =>
      dsimp only
      rcases u.stage.conduct_add dt patience more (.ofLine line) with same | ⟨lost, shorter⟩
      · exact .inl (by rw [same])
      · exact .inr ⟨lost, (List.prefix_append_right_inj _).mpr shorter⟩
  · obtain ⟨move, under⟩ := Option.isSome_iff_exists.mp lost
    have stays : t.next dt patience line = t := by
      unfold Transcript.next
      rw [under]
    rw [stays]
    exact .inr ⟨lost, shorter.trans (u.events_next line)⟩

/-- More patience only adds to what the interpreter tells. -/
theorem interpret_behind (rules : Rules) (more : Nat) (lines : List String) :
    (interpret rules dt patience lines).Behind (interpret rules dt (patience + more) lines) := by
  suffices all : ∀ t u, Behind t u →
      (lines.foldl (next dt patience) t).Behind (lines.foldl (next dt (patience + more)) u) from
    all _ _ (.inl rfl)
  induction lines with
  | nil => exact fun t u behind => behind
  | cons line lines ih => exact fun t u behind => ih _ _ (behind.next more line)

theorem interpret_append (rules : Rules) (lines more : List String) :
    interpret rules dt patience (lines ++ more)
      = more.foldl (next dt patience) (interpret rules dt patience lines) := List.foldl_append

end Transcript
end Turtle
