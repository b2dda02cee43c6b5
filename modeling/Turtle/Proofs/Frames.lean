import Turtle.Proofs.History
import Turtle.Session

/-! Sessions played in frames of any lengths.
A frame runs some ticks and only then delivers their events, so the replies to them come later than
they would after single ticks. They still land behind every line that waits, and a tick does not
look beyond the line it starts; so a frame comes to the same as turns of one tick each, one for each
tick that found something to do. -/
namespace Turtle

namespace Stage

theorem length_resume_le (s : Stage) (dt : Single) (move : Underway) :
    (s.resume dt move).events.length ≤ 1 := by
  unfold resume
  split
  · exact Nat.zero_le 1
  · dsimp only
    split <;> exact Nat.le_refl 1

theorem length_perform_le (s : Stage) (dt : Single) (c : Command) :
    (s.perform dt c).events.length ≤ 2 := by
  cases c with
  | spawn name =>
    rw [perform, spawn]
    split
    · exact Nat.le_succ 1
    · exact Nat.le_refl 2
  | query into name =>
    rw [perform, query]
    split <;> exact Nat.le_succ 1
  | move name distance =>
    rw [perform, move]
    split
    · exact Nat.le_succ 1
    · exact Nat.succ_le_succ (length_resume_le _ dt _)
  | malformedMove name operand =>
    rw [perform, rejectMove]
    split <;> exact Nat.le_succ 1
  | unrecognized line => exact Nat.le_succ 1

end Stage

theorem Outbox.pushAll_of_room {o : Outbox} {events : List Event}
    (room : o.waiting.length + events.length ≤ limit) :
    o.pushAll events = ⟨o.waiting ++ events, o.dropped⟩ := by
  induction events generalizing o with
  | nil => rw [List.append_nil]; rfl
  | cons event events ih =>
    rw [List.length_cons] at room
    have pushed := push_of_room (o := o) (by omega) event
    have fits : (o.waiting ++ [event]).length + events.length ≤ limit := by
      rw [List.length_append, List.length_singleton]
      omega
    change (o.push event).pushAll events = _
    rw [pushed, ih fits, List.append_assoc]
    rfl

namespace Scheduler

def enqueue (s : Scheduler) (lines : List String) : Scheduler :=
  { s with queue := s.queue ++ lines }

@[simp] theorem enqueue_nil (s : Scheduler) : s.enqueue [] = s := by simp [enqueue]

@[simp] theorem enqueue_enqueue (s : Scheduler) (lines more : List String) :
    (s.enqueue lines).enqueue more = s.enqueue (lines ++ more) := by simp [enqueue]

def emissions (s : Scheduler) (dt : Single) : Nat → List Event
  | 0 => []
  | n + 1 => s.emits dt ++ (s.tick dt).emissions dt n

variable {s : Scheduler}

/-- A tick that has something to do does not look at what lies behind it, nor at the outbox. -/
theorem tick_enqueue (busy : s.isIdle = false) (dt : Single) (lines : List String)
    (outbox : Outbox) :
    ({ s with outbox := outbox }.enqueue lines).tick dt
      = { s.tick dt with outbox := outbox.pushAll (s.emits dt) }.enqueue lines := by
  obtain ⟨stage, queue, underway, before, completed⟩ := s
  cases underway with
  | some move => rfl
  | none =>
    cases queue with
    | nil => cases busy
    | cons line queue => rfl

theorem isIdle_enqueue (busy : s.isIdle = false) (lines : List String) :
    (s.enqueue lines).isIdle = false := by
  obtain ⟨stage, queue, underway, outbox, completed⟩ := s
  cases underway with
  | some move => rfl
  | none =>
    cases queue with
    | nil => cases busy
    | cons line queue => rfl

theorem length_emits_le (s : Scheduler) (dt : Single) : (s.emits dt).length ≤ 2 := by
  unfold emits work?
  cases s.underway with
  | some move => exact Nat.le_succ_of_le (s.stage.length_resume_le dt move)
  | none =>
    cases s.queue with
    | nil => exact Nat.zero_le 2
    | cons line queue => exact s.stage.length_perform_le dt (.ofLine line)

theorem outbox_tick_of_room (room : s.outbox.waiting.length + 2 ≤ Outbox.limit) (dt : Single) :
    (s.tick dt).outbox = ⟨s.outbox.waiting ++ s.emits dt, s.outbox.dropped⟩ := by
  rw [outbox_tick]
  exact Outbox.pushAll_of_room (Nat.le_trans (Nat.add_le_add_left (s.length_emits_le dt) _) room)

theorem room_tick {n : Nat} (room : s.outbox.waiting.length + 2 * (n + 1) ≤ Outbox.limit)
    (dt : Single) : (s.tick dt).outbox.waiting.length + 2 * n ≤ Outbox.limit := by
  have few := s.length_emits_le dt
  rw [outbox_tick_of_room (by omega) dt, List.length_append]
  omega

/-- While there is room, all events of some ticks wait, and nothing is dropped. -/
theorem outbox_ticks {n : Nat} (room : s.outbox.waiting.length + 2 * n ≤ Outbox.limit)
    (dt : Single) :
    (s.ticks dt n).outbox = ⟨s.outbox.waiting ++ s.emissions dt n, s.outbox.dropped⟩ := by
  induction n generalizing s with
  | zero =>
    rw [emissions, List.append_nil]
    rfl
  | succ n ih =>
    rw [ticks, ih (room_tick room dt), outbox_tick_of_room (by omega) dt, emissions,
      List.append_assoc]

end Scheduler

namespace Plan

theorem spend_le (length : Span) (used cap : Nat) (backlog : Span) :
    (spend length used cap backlog).1 ≤ used + cap := by
  induction cap generalizing used backlog with
  | zero => exact Nat.le_refl used
  | succ cap ih =>
    unfold spend
    split
    · have more := ih (used + 1) (backlog - length)
      omega
    · exact Nat.le_add_right used _

theorem ticks_ofBacklog_le (length : Span) (cap : Nat) (backlog : Span) :
    (ofBacklog length cap backlog).ticks ≤ cap := by
  have few := spend_le length 0 cap backlog
  rw [Nat.zero_add] at few
  unfold ofBacklog
  dsimp only
  split <;> exact few

end Plan

namespace Session

def ofLines (rules : Rules) (lines replies : List String) : Session :=
  .ofScheduler (lines.foldl (fun s line => (s.submit line).2) (.ofRules rules)) replies

/-- Frame after frame, while there are any, until the scheduler is idle. -/
def play : Pacer → List Span → Session → Session
  | _, [], s => s
  | pacer, length :: lengths, s =>
    if s.scheduler.isIdle then s
    else
      let (pacer, s) := s.frame pacer length
      play pacer lengths s

/-- The events that are emitted while a session is played. -/
def emissions : Pacer → List Span → Session → List Event
  | _, [], _ => []
  | pacer, length :: lengths, s =>
    if s.scheduler.isIdle then []
    else
      let told := s.scheduler.emissions pacer.dt (pacer.plan length).ticks
      let (pacer, s) := s.frame pacer length
      told ++ emissions pacer lengths s

def prompts (events : List Event) : Nat := events.countP fun event => event.consoleLine?.isSome

/-- A session that has received events: the next replies, one for each that is answered, wait behind
all other lines. -/
def hear (s : Session) (events : List Event) : Session where
  scheduler := s.scheduler.enqueue ((s.replies.take (prompts events)).filter Scheduler.accepts)
  replies := s.replies.drop (prompts events)
  delivered := s.delivered ++ events

def tick (s : Session) (dt : Single) : Session := { s with scheduler := s.scheduler.tick dt }

def ticks (s : Session) (dt : Single) (n : Nat) : Session :=
  { s with scheduler := s.scheduler.ticks dt n }

def withOutbox (s : Session) (outbox : Outbox) : Session :=
  { s with scheduler := { s.scheduler with outbox := outbox } }

variable {s : Session}

theorem receive_eq_hear (s : Session) (event : Event) : s.receive event = s.hear [event] := by
  obtain ⟨scheduler, replies, delivered⟩ := s
  cases answered : event.consoleLine? with
  | none => simp [receive, hear, prompts, Scheduler.enqueue, answered]
  | some line =>
    cases replies with
    | nil => simp [receive, hear, prompts, Scheduler.enqueue, answered]
    | cons reply replies =>
      cases accepted : Scheduler.accepts reply <;>
        simp [receive, hear, prompts, Scheduler.enqueue, Scheduler.submit_eq, answered, accepted]

theorem hear_append (s : Session) (events more : List Event) :
    s.hear (events ++ more) = (s.hear events).hear more := by
  have told : s.delivered ++ (events ++ more) = s.delivered ++ events ++ more := by
    apply Array.ext'
    simp
  simp [hear, prompts, Scheduler.enqueue, List.take_add, told]

theorem foldl_receive (s : Session) (events : List Event) :
    events.foldl receive s = s.hear events := by
  induction events generalizing s with
  | nil => simp [hear, prompts, Scheduler.enqueue]
  | cons event events ih =>
    rw [List.foldl_cons, ih, receive_eq_hear, ← hear_append, List.singleton_append]

theorem deliver_eq_hear (s : Session) :
    s.deliver = (s.withOutbox ⟨[], s.scheduler.outbox.dropped⟩).hear s.scheduler.outbox.waiting :=
  foldl_receive _ _

theorem deliver_of_delivered (empty : s.scheduler.outbox.waiting = []) : s.deliver = s := by
  obtain ⟨⟨stage, queue, underway, ⟨waiting, dropped⟩, completed⟩, replies, delivered⟩ := s
  cases empty
  rfl

theorem isIdle_deliver (busy : s.scheduler.isIdle = false) :
    s.deliver.scheduler.isIdle = false := by
  rw [deliver_eq_hear]
  exact Scheduler.isIdle_enqueue (s := { s.scheduler with outbox := _ }) busy _

theorem tick_hear (busy : s.scheduler.isIdle = false) (dt : Single) (outbox : Outbox)
    (events : List Event) :
    ((s.withOutbox outbox).hear events).tick dt
      = ((s.tick dt).withOutbox (outbox.pushAll (s.scheduler.emits dt))).hear events :=
  congrArg (Session.mk · _ _) (Scheduler.tick_enqueue busy dt _ outbox)

/-- Whether events are delivered before a tick or after it comes to the same, if the tick has
something to do and the outbox has room for its events. -/
theorem turn_deliver (busy : s.scheduler.isIdle = false)
    (room : s.scheduler.outbox.waiting.length + 2 ≤ Outbox.limit) (dt : Single) :
    s.deliver.turn dt = s.turn dt := by
  have two := s.scheduler.length_emits_le dt
  have few : ([] : List Event).length + (s.scheduler.emits dt).length ≤ Outbox.limit := by
    rw [List.length_nil]
    omega
  have early : s.deliver.tick dt
      = ((s.tick dt).withOutbox ⟨s.scheduler.emits dt, s.scheduler.outbox.dropped⟩).hear
        s.scheduler.outbox.waiting := by
    rw [deliver_eq_hear, tick_hear busy, Outbox.pushAll_of_room few]
    rfl
  have late : (s.tick dt).scheduler.outbox
      = ⟨s.scheduler.outbox.waiting ++ s.scheduler.emits dt, s.scheduler.outbox.dropped⟩ :=
    Scheduler.outbox_tick_of_room room dt
  calc s.deliver.turn dt
      = (s.deliver.tick dt).deliver := rfl
    _ = (((s.tick dt).withOutbox ⟨[], s.scheduler.outbox.dropped⟩).hear
          s.scheduler.outbox.waiting).hear (s.scheduler.emits dt) := by
      rw [early, deliver_eq_hear]
      rfl
    _ = ((s.tick dt).withOutbox ⟨[], s.scheduler.outbox.dropped⟩).hear
          (s.scheduler.outbox.waiting ++ s.scheduler.emits dt) := (hear_append _ _ _).symm
    _ = (s.tick dt).deliver := by rw [deliver_eq_hear, late]
    _ = s.turn dt := rfl

/-- Ticks that are delivered together come to the same as some turns. -/
theorem settle_deliver {n : Nat}
    (room : s.scheduler.outbox.waiting.length + 2 * n ≤ Outbox.limit) (dt : Single) :
    ∃ turns, ∀ limit,
      s.deliver.settle dt (limit + turns) = (s.ticks dt n).deliver.settle dt limit := by
  -- From the first tick on, which leaves its events and those before it for the ticks that follow.
  induction n generalizing s with
  | zero => exact ⟨0, fun _ => rfl⟩
  | succ n ih =>
    cases idle : s.scheduler.isIdle with
    | true =>
      have still := Scheduler.tick_of_isIdle idle dt
      obtain ⟨turns, same⟩ := ih (s := s) (by omega)
      refine ⟨turns, fun limit => ?_⟩
      rw [same, ticks, ticks, Scheduler.ticks, still]
    | false =>
      have less := Scheduler.room_tick room dt
      obtain ⟨turns, same⟩ := ih (s := s.tick dt) less
      refine ⟨turns + 1, fun limit => ?_⟩
      rw [← Nat.add_assoc, settle, isIdle_deliver idle, turn_deliver idle (by omega)]
      exact same limit

theorem settle_of_isIdle (idle : s.scheduler.isIdle = true) (dt : Single) (limit : Nat) :
    s.settle dt limit = s := by
  cases limit with
  | zero => rfl
  | succ limit => rw [settle, if_pos idle]

variable {pacer : Pacer}

/-- No frame fills the outbox if it runs at most half as many ticks as there is room for events. -/
theorem room_plan (small : pacer.maxTicks ≤ 512)
    (empty : s.scheduler.outbox = .empty) (length : Span) :
    s.scheduler.outbox.waiting.length + 2 * (pacer.plan length).ticks ≤ Outbox.limit := by
  have few : (pacer.plan length).ticks ≤ pacer.maxTicks := Plan.ticks_ofBacklog_le _ _ _
  rw [empty, Outbox.empty, List.length_nil, Outbox.limit]
  omega

theorem frame_delivers (small : pacer.maxTicks ≤ 512)
    (empty : s.scheduler.outbox = .empty) (length : Span) :
    let after := (s.frame pacer length).2
    after.scheduler.outbox = .empty ∧ after.delivered.toList
      = s.delivered.toList ++ s.scheduler.emissions pacer.dt (pacer.plan length).ticks := by
  have outbox := Scheduler.outbox_ticks (room_plan small empty length) pacer.dt
  rw [empty] at outbox
  have told : (s.frame pacer length).2 = _ :=
    deliver_eq_hear (s.ticks pacer.dt (pacer.plan length).ticks)
  dsimp only
  rw [told, ticks, outbox]
  refine ⟨rfl, ?_⟩
  simp [hear, withOutbox, Outbox.empty]

theorem play_delivers (small : pacer.maxTicks ≤ 512) (empty : s.scheduler.outbox = .empty)
    (lengths : List Span) :
    (play pacer lengths s).scheduler.outbox = .empty ∧
    (play pacer lengths s).delivered.toList = s.delivered.toList ++ emissions pacer lengths s := by
  induction lengths generalizing pacer s with
  | nil => exact ⟨empty, (List.append_nil _).symm⟩
  | cons length lengths ih =>
    unfold play emissions
    split
    · exact ⟨empty, (List.append_nil _).symm⟩
    · obtain ⟨left, told⟩ := frame_delivers small empty length
      have next : (s.frame pacer length).1.maxTicks ≤ 512 := small
      obtain ⟨outbox, delivered⟩ := ih next left
      refine ⟨outbox, ?_⟩
      rw [← List.append_assoc, ← told]
      exact delivered

/-- Frames of any lengths come to the same as some turns of one tick each. -/
theorem settle_play (small : pacer.maxTicks ≤ 512) (empty : s.scheduler.outbox = .empty)
    (lengths : List Span) :
    ∃ turns, ∀ limit,
      s.settle pacer.dt (limit + turns) = (play pacer lengths s).settle pacer.dt limit := by
  induction lengths generalizing pacer s with
  | nil => exact ⟨0, fun _ => rfl⟩
  | cons length lengths ih =>
    unfold play
    split
    · exact ⟨0, fun _ => rfl⟩
    · obtain ⟨left, _⟩ := frame_delivers small empty length
      have next : (s.frame pacer length).1.maxTicks ≤ 512 := small
      obtain ⟨rest, later⟩ := ih next left
      obtain ⟨turns, same⟩ := settle_deliver (room_plan small empty length) pacer.dt
      rw [deliver_of_delivered (by rw [empty]; rfl)] at same
      refine ⟨rest + turns, fun limit => ?_⟩
      rw [← Nat.add_assoc, same]
      exact later limit

theorem outbox_ofLines (rules : Rules) (lines replies : List String) :
    (ofLines rules lines replies).scheduler.outbox = .empty := by
  have kept (s : Scheduler) :
      (lines.foldl (fun s line => (s.submit line).2) s).outbox = s.outbox := by
    induction lines generalizing s with
    | nil => rfl
    | cons line lines ih => rw [List.foldl_cons, ih, s.submit_eq]
  exact kept (.ofRules rules)

/-- However long the frames of a session are, none of its events is dropped and all are delivered,
in order. Once the scheduler is idle, everything is as after single ticks, so also as after any
other frames that lead to idleness. -/
theorem play_eq_settle (rules : Rules) (pace : Pace) (small : pace.maxTicks ≤ 512)
    (lines replies : List String) (lengths : List Span) :
    let pacer := Pacer.ofPace pace
    let start := ofLines rules lines replies
    let after := play pacer lengths start
    after.scheduler.outbox.dropped = 0 ∧
    after.delivered.toList = emissions pacer lengths start ∧
    (after.scheduler.isIdle = true →
      (∃ turns, ∀ limit, turns ≤ limit → start.settle pacer.dt limit = after) ∧
      ∀ others, (play pacer others start).scheduler.isIdle = true →
        play pacer others start = after) := by
  intro pacer start after
  have cap : pacer.maxTicks ≤ 512 := Nat.max_le.mpr ⟨by decide, small⟩
  have empty : start.scheduler.outbox = .empty := outbox_ofLines rules lines replies
  obtain ⟨outbox, delivered⟩ := play_delivers cap empty lengths
  have settles (lengths : List Span) (idle : (play pacer lengths start).scheduler.isIdle = true) :
      ∃ turns, ∀ limit, turns ≤ limit → start.settle pacer.dt limit = play pacer lengths start := by
    obtain ⟨turns, same⟩ := settle_play cap empty lengths
    refine ⟨turns, fun limit enough => ?_⟩
    rw [← Nat.sub_add_cancel enough, same, settle_of_isIdle idle]
  refine ⟨by rw [outbox]; rfl, delivered, fun idle => ⟨settles lengths idle, ?_⟩⟩
  intro others also
  obtain ⟨turns, first⟩ := settles lengths idle
  obtain ⟨more, second⟩ := settles others also
  exact (second _ (Nat.le_add_left _ _)).symm.trans (first _ (Nat.le_add_right turns more))

/-- The query is answered with a move, and the failure with a line that cannot be read. -/
theorem long_and_short_frames_end_alike :
    let pacer := Pacer.ofPace .standard
    let start := ofLines .standard ["A=Turtle()", "p=A.position()", "stop"] ["A.fd(0.05)", "go"]
    let long := play pacer (.replicate 3 (.ofMillis 200)) start
    let short := play pacer (.replicate 12 (.ofMillis 18)) start
    long.scheduler.isIdle = true ∧ long.scheduler.completed = 5 ∧
      long.scheduler.outbox.dropped = 0 ∧ short.scheduler.isIdle = true ∧ short = long := by
  have outcome := play_eq_settle .standard .standard (by decide)
    ["A=Turtle()", "p=A.position()", "stop"] ["A.fd(0.05)", "go"] (.replicate 3 (.ofMillis 200))
  dsimp only at outcome ⊢
  obtain ⟨kept, _, settled⟩ := outcome
  refine ⟨by decide +kernel, by decide +kernel, kept, by decide +kernel, ?_⟩
  exact (settled (by decide +kernel)).2 _ (by decide +kernel)

end Session
end Turtle
