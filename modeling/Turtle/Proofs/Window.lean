import Mathlib.Algebra.GroupWithZero.Nat
import Mathlib.Data.List.DropRight
import Turtle.Proofs.Frames

/-! Between two drains the outbox is a window on the latest events.
A run is cut into periods at its drains. A period hands over its last events, as many as the outbox
has room for, and all that came before them are counted as dropped. -/
namespace Turtle

namespace Outbox

/-- An outbox in a period that has emitted some events so far, after `lost` events of earlier
periods. -/
structure Holds (o : Outbox) (lost : Nat) (events : List Event) : Prop where
  waiting : o.waiting = events.rtake limit
  dropped : o.dropped = min (lost + (events.length - limit)) (twoTo 64 - 1)

variable {o : Outbox} {lost : Nat} {events : List Event}

theorem holds_empty : empty.Holds 0 [] where
  waiting := rfl
  dropped := rfl

theorem Holds.length_waiting (holds : o.Holds lost events) :
    o.waiting.length = min events.length limit := by
  simp only [holds.waiting, List.rtake, List.length_drop]
  omega

/-- The window moves on by one event. Once it is full, the first event of it is dropped. -/
theorem Holds.push (holds : o.Holds lost events) (event : Event) :
    (o.push event).Holds lost (events ++ [event]) := by
  have size := holds.length_waiting
  have longer : (events ++ [event]).length = events.length + 1 := List.length_append
  by_cases full : o.waiting.length = limit
  · have many : limit ≤ events.length := by omega
    have excess : (events ++ [event]).length - limit = events.length - limit + 1 := by omega
    have inside : events.length - limit + 1 ≤ events.length := by
      have positive : 0 < limit := by decide
      omega
    simp only [Outbox.push, if_pos full]
    constructor
    · simp only [holds.waiting, List.rtake, excess, List.drop_drop,
        List.drop_append_of_le_length inside]
    · simp only [holds.dropped, excess, countUp_min, Nat.add_assoc]
  · have excess : (events ++ [event]).length - limit = 0 := by omega
    have before : events.length - limit = 0 := by omega
    simp only [Outbox.push, if_neg full]
    constructor
    · simp only [holds.waiting, List.rtake, excess, before, List.drop_zero]
    · simp only [holds.dropped, excess, before]

theorem Holds.pushAll (holds : o.Holds lost events) (more : List Event) :
    (o.pushAll more).Holds lost (events ++ more) := by
  induction more generalizing o events with
  | nil =>
    rw [List.append_nil]
    exact holds
  | cons event more ih =>
    have next := ih (holds.push event)
    rw [List.append_assoc] at next
    exact next

theorem Holds.drain (holds : o.Holds lost events) :
    o.drain.1 = events.rtake limit ∧ o.drain.2.Holds (lost + (events.length - limit)) [] :=
  ⟨holds.waiting, rfl, by simp only [Outbox.drain, holds.dropped, List.length_nil, Nat.zero_sub,
    Nat.add_zero]⟩

end Outbox

namespace Scheduler

theorem outbox_ticks_eq_pushAll (s : Scheduler) (dt : Single) (n : Nat) :
    (s.ticks dt n).outbox = s.outbox.pushAll (s.emissions dt n) := by
  induction n generalizing s with
  | zero => rfl
  | succ n ih => simp only [ticks, emissions, ih, outbox_tick, Outbox.pushAll, List.foldl_append]

def told (s : Scheduler) : Act → List Event
  | .submit _ => []
  | .tick dt => s.emits dt
  | .run dt limit => s.emissions dt (s.run dt limit).1
  | .advance pacer frame => s.emissions pacer.dt (pacer.plan frame).ticks
  | .drain => []

end Scheduler

theorem History.emitted_ticks (h : History) (dt : Single) (n : Nat) :
    (h.ticks dt n).emitted = h.emitted ++ h.scheduler.emissions dt n := by
  induction n generalizing h with
  | zero => simp [ticks, Scheduler.emissions]
  | succ n ih => simp [ticks, ih, Scheduler.emissions, tick]

theorem History.emitted_act (h : History) (a : Act) :
    (h.act a).emitted = h.emitted ++ h.scheduler.told a := by
  cases a with
  | submit line => simp [act, submit_eq, Scheduler.told]
  | tick dt => rfl
  | run dt limit => exact h.emitted_ticks dt _
  | advance pacer frame => exact h.emitted_ticks _ _
  | drain => simp [act, drain, Scheduler.told]

/-- What was emitted from one drain to the next, and what the second of them handed over. -/
structure Period where
  emitted : List Event
  taken : List Event

/-- A run cut at its drains, with what was emitted since the last one. -/
structure Ledger where
  scheduler : Scheduler
  periods : List Period
  current : List Event

namespace Ledger

def ofRules (rules : Rules) : Ledger := ⟨.ofRules rules, [], []⟩

def act (l : Ledger) : Act → Ledger
  | .drain =>
    let (taken, scheduler) := l.scheduler.drain
    ⟨scheduler, l.periods ++ [⟨l.current, taken⟩], []⟩
  | a => { l with scheduler := l.scheduler.act a, current := l.current ++ l.scheduler.told a }

def acts (l : Ledger) (list : List Act) : Ledger := list.foldl act l

def emitted (l : Ledger) : List Event := l.periods.flatMap Period.emitted ++ l.current

def taken (l : Ledger) : List Event := l.periods.flatMap Period.taken

/-- The events of the periods before the current one that found no room in the end. -/
def lost (l : Ledger) : Nat := (l.periods.map fun p => p.emitted.length - Outbox.limit).sum

structure Slides (l : Ledger) : Prop where
  holds : l.scheduler.outbox.Holds l.lost l.current
  taken : ∀ p ∈ l.periods, p.taken = p.emitted.rtake Outbox.limit

variable {l : Ledger}

theorem slides_ofRules (rules : Rules) : (ofRules rules).Slides where
  holds := Outbox.holds_empty
  taken := List.forall_mem_nil _

theorem Slides.extend (slides : l.Slides) {scheduler : Scheduler} {events : List Event}
    (pushed : scheduler.outbox = l.scheduler.outbox.pushAll events) :
    Slides { l with scheduler := scheduler, current := l.current ++ events } where
  holds := by
    rw [pushed]
    exact slides.holds.pushAll events
  taken := slides.taken

theorem Slides.act (slides : l.Slides) (a : Act) : (l.act a).Slides := by
  cases a with
  | submit line =>
    apply slides.extend
    simp only [Scheduler.act, Scheduler.submit_eq]
    rfl
  | tick dt => exact slides.extend (l.scheduler.outbox_tick dt)
  | run dt limit =>
    apply slides.extend
    simp only [Scheduler.act, Scheduler.run_eq_ticks, Scheduler.outbox_ticks_eq_pushAll,
      Scheduler.told]
  | advance pacer frame => exact slides.extend (l.scheduler.outbox_ticks_eq_pushAll _ _)
  | drain =>
    obtain ⟨handed, next⟩ := slides.holds.drain
    constructor
    · simpa [Ledger.act, Ledger.lost, Scheduler.drain] using next
    · intro p member
      rcases List.mem_append.mp member with old | new
      · exact slides.taken p old
      · cases List.mem_singleton.mp new
        exact handed

theorem Slides.acts (slides : l.Slides) (list : List Act) : (l.acts list).Slides := by
  induction list generalizing l with
  | nil => exact slides
  | cons a list ih => exact ih (slides.act a)

def Records (l : Ledger) (h : History) : Prop :=
  l.scheduler = h.scheduler ∧ l.emitted = h.emitted

theorem Records.act {h : History} (records : l.Records h) (a : Act) :
    (l.act a).Records (h.act a) := by
  obtain ⟨same, told⟩ := records
  have grown := h.emitted_act a
  constructor
  · rw [History.scheduler_act, ← same]
    cases a <;> rfl
  · rw [grown, ← told, ← same]
    cases a <;> simp [Ledger.act, emitted, Scheduler.told]

theorem Records.acts {h : History} (records : l.Records h) (list : List Act) :
    (l.acts list).Records (h.acts list) := by
  induction list generalizing l h with
  | nil => exact records
  | cons a list ih => exact ih (records.act a)

theorem length_taken (periods : List Period)
    (taken : ∀ p ∈ periods, p.taken = p.emitted.rtake Outbox.limit) :
    (periods.flatMap Period.emitted).length = (periods.flatMap Period.taken).length
      + (periods.map fun p => p.emitted.length - Outbox.limit).sum := by
  induction periods with
  | nil => rfl
  | cons p periods ih =>
    obtain ⟨first, later⟩ := List.forall_mem_cons.mp taken
    have rest := ih later
    simp only [List.flatMap_cons, List.length_append, List.map_cons, List.sum_cons, first,
      List.rtake, List.length_drop] at rest ⊢
    omega

/-- Every event emitted has been taken, or waits, or was lost. -/
theorem Slides.length_emitted (slides : l.Slides) :
    l.emitted.length = l.taken.length + l.scheduler.outbox.waiting.length
      + (l.lost + (l.current.length - Outbox.limit)) := by
  have past := length_taken l.periods slides.taken
  have present := slides.holds.length_waiting
  simp only [emitted, Ledger.taken, lost, List.length_append]
  omega

theorem taken_sublist (periods : List Period)
    (taken : ∀ p ∈ periods, p.taken = p.emitted.rtake Outbox.limit) :
    List.Sublist (periods.flatMap Period.taken) (periods.flatMap Period.emitted) := by
  induction periods with
  | nil => exact .slnil
  | cons p periods ih =>
    obtain ⟨first, later⟩ := List.forall_mem_cons.mp taken
    simp only [List.flatMap_cons, first]
    exact (List.drop_sublist _ _).append (ih later)

theorem rtake_of_few {events : List Event} (few : events.length ≤ Outbox.limit) :
    events.rtake Outbox.limit = events := by
  simp only [List.rtake, Nat.sub_eq_zero_of_le few, List.drop_zero]

/-- However a scheduler is driven, the events that wait are the last ones since the last drain, as
many as the outbox has room for, and so were the events that each drain handed over. What is counted
as dropped is the excess of every period over that room. So each event emitted has been taken, waits
or was dropped, and those that were taken or wait stand in the order of emission. -/
theorem outbox_is_window (rules : Rules) (list : List Act) :
    let l := (ofRules rules).acts list
    let h := (History.ofRules rules).acts list
    let o := h.scheduler.outbox
    l.scheduler = h.scheduler ∧ l.emitted = h.emitted ∧
    o.waiting = l.current.rtake Outbox.limit ∧
    o.waiting.length = min l.current.length Outbox.limit ∧
    (l.current.length ≤ Outbox.limit → o.waiting = l.current) ∧
    (∀ p ∈ l.periods, p.taken = p.emitted.rtake Outbox.limit ∧
      (p.emitted.length ≤ Outbox.limit → p.taken = p.emitted)) ∧
    o.dropped = min (l.lost + (l.current.length - Outbox.limit)) (twoTo 64 - 1) ∧
    (h.emitted.length < twoTo 64 →
      h.emitted.length = l.taken.length + o.waiting.length + o.dropped) ∧
    List.Sublist (l.taken ++ o.waiting) h.emitted := by
  intro l h o
  obtain ⟨same, told⟩ : l.Records h := Records.acts ⟨rfl, rfl⟩ list
  have slides : l.Slides := (slides_ofRules rules).acts list
  have holds : o.Holds l.lost l.current := by
    have window := slides.holds
    rwa [same] at window
  have count := slides.length_emitted
  rw [told, same] at count
  refine ⟨same, told, holds.waiting, holds.length_waiting, ?_, ?_, holds.dropped, ?_, ?_⟩
  · intro few
    rw [holds.waiting, rtake_of_few few]
  · intro p member
    have taken := slides.taken p member
    exact ⟨taken, fun few => taken.trans (rtake_of_few few)⟩
  · intro few
    have whole : l.lost + (l.current.length - Outbox.limit) ≤ twoTo 64 - 1 := by omega
    rw [holds.dropped, Nat.min_eq_left whole]
    exact count
  · rw [← told, holds.waiting]
    exact (taken_sublist l.periods slides.taken).append (List.drop_sublist _ _)

end Ledger
end Turtle
