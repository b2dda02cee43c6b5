import Mathlib.Logic.Relation
import Turtle.Program
import Turtle.Proofs.Console
import Turtle.Proofs.Lines
import Turtle.Proofs.Settling

/-! The program as it runs, with a reader beside it.
The source is read line by line while frames run, so a line may be submitted before, between or
after any two ticks, and a frame of any length delivers its events only once its ticks are over.
Neither matters: what has been printed when all lines are read and nothing waits or moves is what
the sequential interpreter makes of the lines. -/
namespace Turtle

theorem History.Reached.enqueue {permitted : Single → Prop} {rules : Rules} {h : History}
    (reached : Reached permitted rules h) {lines : List String}
    (proper : ∀ line ∈ lines, Scheduler.accepts line = true) :
    Reached permitted rules ⟨h.scheduler.enqueue lines, h.accepted ++ lines, h.emitted⟩ := by
  induction lines generalizing h with
  | nil => simpa [Scheduler.enqueue] using reached
  | cons line lines ih =>
    obtain ⟨first, later⟩ := List.forall_mem_cons.mp proper
    have all := ih (reached.submit line) later
    simpa [h.submit_eq, first, Scheduler.enqueue] using all

/-- A program at work: its session and the pacer of it, the lines of the source that are not read
yet, and within a frame the ticks that are still due. -/
structure Shell where
  pacer : Pacer
  session : Session
  unread : List Text.Bytes
  due : Option Nat

namespace Shell

def start (config : Config) (bytes : Text.Bytes) : Shell :=
  ⟨.ofPace config.pace, .ofScheduler (.ofRules config.rules) [], Source.lines bytes, none⟩

/-- The reader takes the next line. It gives up at a line that is not text. -/
def read (s : Shell) (line : Text.Bytes) (rest : List Text.Bytes) : Shell :=
  let intake := Source.submitLines [line] 0 s.session.scheduler
  { s with
    session := { s.session with scheduler := intake.scheduler }
    unread := if intake.wasText then rest else [] }

/-- A frame begins, and takes its ticks from the time it brings. -/
def enter (s : Shell) (length : Span) : Shell :=
  let plan := s.pacer.plan length
  { s with pacer := { s.pacer with backlog := plan.backlog }, due := some plan.ticks }

def tick (s : Shell) (more : Nat) : Shell :=
  { s with session := s.session.tick s.pacer.dt, due := some more }

def deliver (s : Shell) : Shell := { s with session := s.session.deliver, due := none }

/-- What may happen next. Lines are read at any time, and frames are of any length. -/
inductive Step (s : Shell) : Shell → Prop where
  | read (line : Text.Bytes) (rest : List Text.Bytes) :
      s.unread = line :: rest → Step s (s.read line rest)
  | enter (length : Span) : s.due = none → Step s (s.enter length)
  | tick (more : Nat) : s.due = some (more + 1) → Step s (s.tick more)
  | deliver : s.due = some 0 → Step s s.deliver

def Runs : Shell → Shell → Prop := Relation.ReflTransGen Step

/-- Everything is read and delivered, and nothing waits or moves. -/
structure Ended (s : Shell) : Prop where
  read : s.unread = []
  between : s.due = none
  idle : s.session.scheduler.isIdle = true

/-- The record of what a program at work has done. The outbox has room for the ticks that are due,
and between frames for those of the longest frame. -/
structure Records (rules : Rules) (dt : Single) (commands : List String) (s : Shell) (h : History) :
    Prop where
  reached : History.Reached (· = dt) rules h
  steady : s.pacer.dt = dt
  small : s.pacer.maxTicks ≤ 512
  scheduler : s.session.scheduler = h.scheduler
  alone : s.session.replies = []
  emitted : h.emitted = s.session.delivered.toList ++ s.session.scheduler.outbox.waiting
  room : s.session.scheduler.outbox.waiting.length + 2 * s.due.getD 512 ≤ Outbox.limit
  accepted : h.accepted ++ Source.commandsOf s.unread = commands

variable {rules : Rules} {dt : Single} {commands : List String} {s next : Shell} {h : History}

theorem read_eq (s : Shell) (line : Text.Bytes) (rest : List Text.Bytes) :
    s.read line rest =
      { s with
        session := { s.session with
          scheduler := s.session.scheduler.enqueue (Source.commandsOf [line]) }
        unread := if (Text.decode? line).isSome then rest else [] } := by
  simp [read, Source.submitLines_eq]

/-- What is read and what is left to be read make up the commands there were. -/
theorem commandsOf_read (s : Shell) (line : Text.Bytes) (rest : List Text.Bytes) :
    Source.commandsOf [line] ++ Source.commandsOf (s.read line rest).unread
      = Source.commandsOf (line :: rest) := by
  rw [read_eq]
  cases decoded : Text.decode? line with
  | none => simp [Source.commandsOf_cons_of_stray decoded]
  | some text => simp [Source.commandsOf_cons_of_text decoded]

theorem runs_read (pacer : Pacer) (session : Session) (pieces : List Text.Bytes) :
    Runs ⟨pacer, session, pieces, none⟩ ⟨pacer,
      { session with scheduler := session.scheduler.enqueue (Source.commandsOf pieces) }, [],
      none⟩ := by
  induction pieces generalizing session with
  | nil =>
    rw [Source.commandsOf_nil, Scheduler.enqueue_nil]
    exact .refl
  | cons line rest ih =>
    refine .head (.read line rest rfl) ?_
    rw [← commandsOf_read ⟨pacer, session, line :: rest, none⟩, ← Scheduler.enqueue_enqueue,
      read_eq]
    cases (Text.decode? line).isSome with
    | false =>
      simp only [Bool.false_eq_true, if_false, Source.commandsOf_nil, Scheduler.enqueue_nil]
      exact .refl
    | true => exact ih _

theorem runs_ticks (pacer : Pacer) (session : Session) (unread : List Text.Bytes) (n : Nat) :
    Runs ⟨pacer, session, unread, some n⟩
      ⟨pacer, session.ticks pacer.dt n, unread, some 0⟩ := by
  induction n generalizing session with
  | zero => exact .refl
  | succ n ih => exact .head (.tick n rfl) (ih (session.tick pacer.dt))

/-- A session that is played frame by frame takes no other steps. -/
theorem runs_play (pacer : Pacer) (lengths : List Span) (session : Session)
    (unread : List Text.Bytes) :
    ∃ after, Runs ⟨pacer, session, unread, none⟩
      ⟨after, Session.play pacer lengths session, unread, none⟩ := by
  induction lengths generalizing pacer session with
  | nil => exact ⟨pacer, .refl⟩
  | cons length lengths ih =>
    unfold Session.play
    split
    · exact ⟨pacer, .refl⟩
    · obtain ⟨after, later⟩ := ih (session.frame pacer length).1 (session.frame pacer length).2
      have frame : Runs ⟨pacer, session, unread, none⟩
          ⟨(session.frame pacer length).1, (session.frame pacer length).2, unread, none⟩ :=
        .head (.enter length rfl) (.tail (runs_ticks _ _ _ _) (.deliver rfl))
      exact ⟨after, frame.trans later⟩

namespace Records

theorem read (records : s.Records rules dt commands h) {line : Text.Bytes}
    {rest : List Text.Bytes} (here : s.unread = line :: rest) :
    (s.read line rest).Records rules dt commands ⟨h.scheduler.enqueue (Source.commandsOf [line]),
      h.accepted ++ Source.commandsOf [line], h.emitted⟩ := by
  have accepted : h.accepted ++ Source.commandsOf [line]
      ++ Source.commandsOf (s.read line rest).unread = commands := by
    rw [List.append_assoc, commandsOf_read, ← here]
    exact records.accepted
  rw [read_eq] at accepted ⊢
  exact { records with
    reached := records.reached.enqueue fun _ => Source.accepts_of_mem_commandsOf
    scheduler := congrArg (Scheduler.enqueue · _) records.scheduler
    accepted := accepted }

theorem enter (records : s.Records rules dt commands h) (between : s.due = none) (length : Span) :
    (s.enter length).Records rules dt commands h := by
  have few : (s.pacer.plan length).ticks ≤ s.pacer.maxTicks := Plan.ticks_ofBacklog_le _ _ _
  have small := records.small
  have room := records.room
  refine { records with room := ?_ }
  simp only [between, Shell.enter, Option.getD_none, Option.getD_some, Outbox.limit] at room ⊢
  omega

theorem tick (records : s.Records rules dt commands h) {more : Nat}
    (due : s.due = some (more + 1)) :
    (s.tick more).Records rules dt commands (h.tick dt) := by
  have room := records.room
  simp only [due, Option.getD_some] at room
  have told := Scheduler.outbox_tick_of_room (s := s.session.scheduler) (by omega) dt
  simp only [Shell.tick, Session.tick, records.steady]
  exact { records with
    reached := records.reached.tick dt rfl
    scheduler := congrArg (Scheduler.tick · dt) records.scheduler
    emitted := by
      simp only [History.tick, told, records.emitted, ← records.scheduler, List.append_assoc]
    room := Scheduler.room_tick room dt }

theorem deliver (records : s.Records rules dt commands h) :
    s.deliver.Records rules dt commands h.drain := by
  have taken := Session.deliver_of_alone records.alone
  simp only [Shell.deliver, taken]
  exact { records with
    reached := records.reached.drain
    scheduler := congrArg (·.drain.2) records.scheduler
    alone := rfl
    emitted := by simp [History.drain, records.emitted, Scheduler.drain, Outbox.drain]
    room := Nat.le_refl _ }

theorem step (records : s.Records rules dt commands h) (step : Step s next) :
    ∃ h, next.Records rules dt commands h := by
  cases step with
  | read line rest here => exact ⟨_, records.read here⟩
  | enter length between => exact ⟨h, records.enter between length⟩
  | tick more due => exact ⟨_, records.tick due⟩
  | deliver _ => exact ⟨_, records.deliver⟩

/-- At the end everything that was emitted has been delivered. -/
theorem of_ended (records : s.Records rules dt commands h) (ended : s.Ended) :
    h.accepted = commands ∧ h.emitted = s.session.delivered.toList ∧
      h.scheduler.isIdle = true := by
  obtain ⟨_, _, _, scheduler, _, emitted, room, accepted⟩ := records
  have empty : s.session.scheduler.outbox.waiting = [] := by
    simp only [ended.between, Option.getD_none, Outbox.limit] at room
    exact List.length_eq_zero_iff.mp (by omega)
  rw [ended.read, Source.commandsOf_nil, List.append_nil] at accepted
  rw [empty, List.append_nil] at emitted
  exact ⟨accepted, emitted, scheduler ▸ ended.idle⟩

variable {patience : Nat}

/-- What has been printed at the end is what the interpreter makes of the commands. -/
theorem printed (records : s.Records rules dt commands h)
    (free : (Transcript.interpret rules dt patience commands).underway = none) (ended : s.Ended) :
    let told := (Transcript.interpret rules dt patience commands).events
    s.session.consoleLines = told.filterMap Event.consoleLine? ∧
      Printed commands told (told.filterMap Event.consoleLine?) := by
  obtain ⟨rfl, delivered, idle⟩ := records.of_ended ended
  have all := (records.reached.prefix_of_free free).2 idle
  rw [Session.consoleLines, ← delivered, ← all]
  exact ⟨rfl, records.reached.printed idle⟩

/-- Once everything is read, there are enough ticks to come as soon as there are as many of them as
events. -/
theorem isIdle_ticks (records : s.Records rules dt commands h)
    (free : (Transcript.interpret rules dt patience commands).underway = none)
    (read : s.unread = []) {n : Nat}
    (enough : (Transcript.interpret rules dt patience commands).events.length ≤ n) :
    (s.session.scheduler.ticks dt n).isIdle = true := by
  have accepted := records.accepted
  rw [read, Source.commandsOf_nil, List.append_nil] at accepted
  rw [← accepted] at free enough
  rw [records.scheduler, ← History.scheduler_ticks]
  exact records.reached.isIdle_ticks free enough

end Records

variable {config : Config} {bytes : Text.Bytes}

theorem records_start (small : config.maxTicksPerFrame ≤ 512) (bytes : Text.Bytes) :
    (start config bytes).Records config.rules (Pacer.ofPace config.pace).dt
      (Source.commands bytes) (.ofRules config.rules) where
  reached := .start
  steady := rfl
  small := Nat.max_le.mpr ⟨by decide, small⟩
  scheduler := rfl
  alone := rfl
  emitted := rfl
  room := Nat.le_refl _
  accepted := rfl

theorem Runs.records (runs : Runs (start config bytes) s)
    (small : config.maxTicksPerFrame ≤ 512) :
    ∃ h, s.Records config.rules (Pacer.ofPace config.pace).dt (Source.commands bytes) h := by
  induction runs with
  | refl => exact ⟨_, records_start small bytes⟩
  | tail _ step ih =>
    obtain ⟨h, records⟩ := ih
    exact records.step step

theorem Records.settle {pacer : Pacer} {session : Session}
    (records : Records rules dt commands ⟨pacer, session, [], none⟩ h) (limit : Nat) :
    ∃ h, Records rules dt commands ⟨pacer, session.settle dt limit, [], none⟩ h := by
  induction limit generalizing session h with
  | zero => exact ⟨h, records⟩
  | succ limit ih =>
    unfold Session.settle
    split
    · exact ⟨h, records⟩
    · have entered : Records rules dt commands ⟨pacer, session, [], some 1⟩ h :=
        { records with
          room := Nat.le_trans (Nat.add_le_add_left (by decide : 2 * 1 ≤ 2 * 512) _) records.room }
      have turned := (entered.tick rfl).deliver
      simp only [Shell.deliver, Shell.tick, records.steady] at turned
      exact ih turned

end Shell
end Turtle
