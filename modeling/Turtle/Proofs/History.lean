import Turtle.Clock.Pacer
import Turtle.Proofs.Running

/-! Runs of a scheduler as it is driven from outside, with the record an onlooker could keep: the
lines that were accepted and the events that were emitted, in order. What the outbox drops or hands
over stays in the record.
Every run is made of single ticks, submitted lines and drains, so a law that these three keep holds
of every run. -/
namespace Turtle

inductive Act where
  | submit (line : String)
  | tick (dt : Single)
  | run (dt : Single) (limit : Nat)
  | advance (pacer : Pacer) (frame : Span)
  | drain

def Act.Keeps (permitted : Single → Prop) : Act → Prop
  | submit _ => True
  | tick dt => permitted dt
  | run dt _ => permitted dt
  | advance pacer _ => permitted pacer.dt
  | drain => True

theorem countUp_min (n : Nat) : countUp (min n (twoTo 64 - 1)) = min (n + 1) (twoTo 64 - 1) := by
  unfold countUp
  omega

namespace Outbox

theorem waiting_push_suffix {o : Outbox} {told : List Event} (latest : o.waiting <:+ told)
    (event : Event) : (o.push event).waiting <:+ told ++ [event] := by
  obtain ⟨before, rfl⟩ := latest
  unfold push
  split
  · refine ⟨before ++ o.waiting.take 1, ?_⟩
    rw [List.append_assoc, ← List.append_assoc (o.waiting.take 1), List.take_append_drop,
      List.append_assoc]
  · exact ⟨before, (List.append_assoc _ _ _).symm⟩

/-- Whatever had to make room, the events that wait are the last ones. -/
theorem waiting_pushAll_suffix {o : Outbox} {told : List Event} (latest : o.waiting <:+ told)
    (events : List Event) : (o.pushAll events).waiting <:+ told ++ events := by
  induction events generalizing o told with
  | nil =>
    rw [List.append_nil]
    exact latest
  | cons event events ih =>
    have later := ih (waiting_push_suffix latest event)
    rw [List.append_assoc] at later
    exact later

end Outbox

namespace Scheduler

def act (s : Scheduler) : Act → Scheduler
  | .submit line => (s.submit line).2
  | .tick dt => s.tick dt
  | .run dt limit => (s.run dt limit).2
  | .advance pacer frame => (pacer.advance frame s).2.2
  | .drain => s.drain.2

def acts (s : Scheduler) (list : List Act) : Scheduler := list.foldl act s

def emits (s : Scheduler) (dt : Single) : List Event :=
  match s.work? dt with
  | some outcome => outcome.events
  | none => []

/-- The events of a tick go to the outbox, and nothing else does. -/
theorem outbox_tick (s : Scheduler) (dt : Single) :
    (s.tick dt).outbox = s.outbox.pushAll (s.emits dt) := by
  unfold tick emits
  cases s.work? dt with
  | none => rfl
  | some outcome => rfl

theorem submit_eq (s : Scheduler) (line : String) :
    s.submit line = (accepts line,
      { s with queue := if accepts line then s.queue ++ [line] else s.queue }) := by
  unfold submit
  split
  · rename_i accepted
    rw [accepted]
  · rename_i blank
    rw [Bool.eq_false_iff.mpr blank]

theorem accepts_of_mem {line : String} {c : Char} (member : c ∈ line.toList)
    (solid : Text.isBlank c = false) : accepts line = true := by
  unfold accepts
  rw [Bool.not_eq_true', Bool.eq_false_iff]
  intro blank
  cases (List.all_eq_true.mp blank c member).symm.trans solid

variable {s : Scheduler}

theorem tick_of_line {line : String} {rest : List String} (free : s.underway = none)
    (queued : s.queue = line :: rest) (dt : Single) :
    s.tick dt = { s with queue := rest }.conclude (s.stage.perform dt (.ofLine line)) ∧
      s.emits dt = (s.stage.perform dt (.ofLine line)).events := by
  obtain ⟨stage, queue, underway, outbox, completed⟩ := s
  cases free
  cases queued
  exact ⟨rfl, rfl⟩

theorem tick_of_move {move : Underway} (busy : s.underway = some move) (dt : Single) :
    s.tick dt = s.conclude (s.stage.resume dt move) ∧
      s.emits dt = (s.stage.resume dt move).events := by
  obtain ⟨stage, queue, underway, outbox, completed⟩ := s
  cases busy
  exact ⟨rfl, rfl⟩

theorem tick_of_rest (free : s.underway = none) (empty : s.queue = []) (dt : Single) :
    s.tick dt = s ∧ s.emits dt = [] := by
  obtain ⟨stage, queue, underway, outbox, completed⟩ := s
  cases free
  cases empty
  exact ⟨rfl, rfl⟩

/-- What submitted lines, ticks and drains keep is kept by all that is done to a scheduler. -/
theorem acts_keeps {P : Scheduler → Prop} (submit : ∀ s line, P s → P (s.submit line).2)
    (tick : ∀ s dt, P s → P (s.tick dt)) (drain : ∀ s, P s → P s.drain.2) (holds : P s)
    (list : List Act) : P (s.acts list) := by
  have ticks (s : Scheduler) (dt : Single) (n : Nat) (holds : P s) : P (s.ticks dt n) := by
    induction n generalizing s with
    | zero => exact holds
    | succ n ih => exact ih (s.tick dt) (tick s dt holds)
  induction list generalizing s with
  | nil => exact holds
  | cons a list ih =>
    apply ih
    cases a with
    | submit line => exact submit s line holds
    | tick dt => exact tick s dt holds
    | run dt limit =>
      rw [act, run_eq_ticks]
      exact ticks s dt _ holds
    | advance pacer frame => exact ticks s pacer.dt _ holds
    | drain => exact drain s holds

end Scheduler

structure History where
  scheduler : Scheduler
  accepted : List String
  emitted : List Event

namespace History

def ofRules (rules : Rules) : History := ⟨.ofRules rules, [], []⟩

def submit (h : History) (line : String) : History :=
  let (accepted, scheduler) := h.scheduler.submit line
  { h with scheduler := scheduler
           accepted := if accepted then h.accepted ++ [line] else h.accepted }

def tick (h : History) (dt : Single) : History :=
  { h with scheduler := h.scheduler.tick dt, emitted := h.emitted ++ h.scheduler.emits dt }

def ticks (h : History) (dt : Single) : Nat → History
  | 0 => h
  | n + 1 => (h.tick dt).ticks dt n

def drain (h : History) : History := { h with scheduler := h.scheduler.drain.2 }

def act (h : History) : Act → History
  | .submit line => h.submit line
  | .tick dt => h.tick dt
  | .run dt limit => h.ticks dt (h.scheduler.run dt limit).1
  | .advance pacer frame => h.ticks pacer.dt (pacer.plan frame).ticks
  | .drain => h.drain

def acts (h : History) (list : List Act) : History := list.foldl act h

theorem submit_eq (h : History) (line : String) :
    h.submit line =
      { h with
        scheduler := { h.scheduler with
          queue := if Scheduler.accepts line then h.scheduler.queue ++ [line]
            else h.scheduler.queue }
        accepted := if Scheduler.accepts line then h.accepted ++ [line] else h.accepted } := by
  unfold submit
  rw [Scheduler.submit_eq]

/-- An accepted line is the last of all and the last that waits. -/
theorem accepted_submit {h : History} {before : List String}
    (waiting : h.accepted = before ++ h.scheduler.queue) (line : String) :
    (h.submit line).accepted = before ++ (h.submit line).scheduler.queue := by
  rw [h.submit_eq]
  dsimp only
  split
  · rw [waiting, List.append_assoc]
  · exact waiting

theorem scheduler_ticks (h : History) (dt : Single) (n : Nat) :
    (h.ticks dt n).scheduler = h.scheduler.ticks dt n := by
  induction n generalizing h with
  | zero => rfl
  | succ n ih => exact ih (h.tick dt)

theorem scheduler_act (h : History) (a : Act) : (h.act a).scheduler = h.scheduler.act a := by
  cases a with
  | submit line => rfl
  | tick dt => rfl
  | run dt limit => rw [Scheduler.act, Scheduler.run_eq_ticks]; exact scheduler_ticks h dt _
  | advance pacer frame => exact scheduler_ticks h _ _
  | drain => rfl

theorem scheduler_acts (h : History) (list : List Act) :
    (h.acts list).scheduler = h.scheduler.acts list := by
  induction list generalizing h with
  | nil => rfl
  | cons a list ih =>
    have later := ih (h.act a)
    rw [scheduler_act] at later
    exact later

/-- The histories that ticks of permitted lengths, submitted lines and drains lead to. -/
inductive Reached (permitted : Single → Prop) (rules : Rules) : History → Prop where
  | start : Reached permitted rules (ofRules rules)
  | submit {h : History} (line : String) :
      Reached permitted rules h → Reached permitted rules (h.submit line)
  | tick {h : History} (dt : Single) :
      Reached permitted rules h → permitted dt → Reached permitted rules (h.tick dt)
  | drain {h : History} : Reached permitted rules h → Reached permitted rules h.drain

variable {permitted : Single → Prop} {rules : Rules}

theorem Reached.ticks {h : History} (reached : Reached permitted rules h) {dt : Single}
    (allowed : permitted dt) (n : Nat) : Reached permitted rules (h.ticks dt n) := by
  induction n generalizing h with
  | zero => exact reached
  | succ n ih => exact ih (reached.tick dt allowed)

theorem Reached.act {h : History} (reached : Reached permitted rules h) {a : Act}
    (keeps : a.Keeps permitted) : Reached permitted rules (h.act a) := by
  cases a with
  | submit line => exact reached.submit line
  | tick dt => exact reached.tick dt keeps
  | run dt limit => exact reached.ticks keeps _
  | advance pacer frame => exact reached.ticks keeps _
  | drain => exact reached.drain

theorem Reached.acts {h : History} (reached : Reached permitted rules h) {list : List Act}
    (keeps : ∀ a ∈ list, a.Keeps permitted) : Reached permitted rules (h.acts list) := by
  induction list generalizing h with
  | nil => exact reached
  | cons a list ih =>
    have next := reached.act (keeps a List.mem_cons_self)
    exact ih next fun b later => keeps b (List.mem_cons_of_mem a later)

/-- The events that nobody has taken yet are the last of the record. -/
theorem Reached.waiting_suffix {h : History} (reached : Reached permitted rules h) :
    h.scheduler.outbox.waiting <:+ h.emitted := by
  induction reached with
  | start => exact List.nil_suffix
  | @submit h line _ ih =>
    rw [h.submit_eq]
    exact ih
  | @tick h dt _ _ ih =>
    unfold History.tick
    rw [Scheduler.outbox_tick]
    exact Outbox.waiting_pushAll_suffix ih _
  | drain _ _ => exact List.nil_suffix

/-- Every run from the start reaches its history, whatever the lengths of its ticks. -/
theorem reached_acts (rules : Rules) (list : List Act) :
    Reached (fun _ => True) rules ((ofRules rules).acts list) := by
  refine Reached.acts .start fun a _ => ?_
  cases a <;> exact trivial

end History
end Turtle
