import Mathlib.Algebra.GroupWithZero.Nat
import Turtle.Clock.Gauge
import Turtle.Proofs.Beat

/-! What a monitor makes of the calls it gets.
The calls fall into periods, each of which begins where the one before ended, lasts at least one
interval, and ends with the call that is answered. The answer tells of the ticks recorded in its
period and of no others. A clock that runs backwards ends no period. -/
namespace Turtle

namespace Gauge

/-- A rate is a quotient by no less than the least step at one. -/
theorem rate_eq_div (ticks : Nat) (elapsed : Span) : ∃ code bounded,
    rate ticks elapsed = .ofNat ticks / .signed false code bounded ∧ 0x34000000 ≤ code := by
  obtain ⟨code, bounded, same⟩ := elapsed.unsigned_seconds
  unfold rate
  dsimp only
  rw [same, Number.epsilon_eq]
  split
  · exact ⟨0x34000000, by decide, rfl, Nat.le_refl _⟩
  · rename_i wide
    rw [Number.unsigned_lt_iff] at wide
    exact ⟨code, bounded, rfl, Nat.le_of_not_lt wide⟩

/-- A rate has no minus sign, and as few ticks as can be counted keep it finite. -/
theorem rate_eq_signed {ticks : Nat} (few : ticks < twoTo 32) (elapsed : Span) :
    ∃ code bounded, rate ticks elapsed = .signed false code bounded ∧
      code < Format.single.infinity := by
  obtain ⟨code, bounded, same, wide⟩ := rate_eq_div ticks elapsed
  have order : Format.single.nearest (ticks * Format.single.unit) 1
      ≤ Format.single.nearest (twoTo 32 * Format.single.unit) 1 :=
    Format.nearest_le_nearest (by decide) Nat.one_pos Nat.one_pos
      (Nat.mul_le_mul_right _ (Nat.mul_le_mul_right _ (Nat.le_of_lt few)))
  have finite := Nat.lt_of_le_of_lt order (show _ < Format.single.infinity by decide)
  rw [same]
  rcases Nat.lt_or_eq_of_le bounded with small | rfl
  · refine ⟨_, _, Number.div_of_finite finite small (by omega), ?_⟩
    have most : Format.single.nearest (Format.single.quanta
        (Format.single.nearest (twoTo 32 * Format.single.unit) 1) * Format.single.unit)
          (Format.single.quanta 0x34000000) < Format.single.infinity := by decide
    refine Nat.lt_of_le_of_lt (Format.nearest_le_nearest (by decide) (Format.quanta_pos (by omega))
      (Format.quanta_pos (by decide)) ?_) most
    exact Nat.mul_le_mul (Nat.mul_le_mul_right _ (Format.quanta_le order)) (Format.quanta_le wide)
  · refine ⟨0, Nat.zero_le _, ?_, by decide⟩
    change Number.div _ _ = _
    simp [Number.div, Nat.ne_of_lt finite, Number.ofNat, Number.ofRatio, Number.nearest,
      Number.zero]

end Gauge

namespace Monitor

/-- What is asked of a monitor: to count ticks, or to read the gauge if it is time. -/
inductive Call where
  | record (n : Nat)
  | observe (now : Span) (completed depth : Nat)
  deriving DecidableEq

namespace Call

def ticks : Call → Nat
  | record n => n
  | observe _ _ _ => 0

/-- Not an observation at the given time or later. -/
def Before (limit : Span) (call : Call) : Prop :=
  ∀ now completed depth, call = observe now completed depth → now < limit

end Call

/-- All ticks that some calls record, as far as they can be counted. -/
def counted (calls : List Call) : Nat := min (calls.map Call.ticks).sum (twoTo 32 - 1)

/-- The calls up to an observation that is answered. -/
structure Period where
  start : Span
  before : List Call
  close : Span
  completed : Nat
  depth : Nat
  deriving DecidableEq

namespace Period

def calls (p : Period) : List Call := p.before ++ [.observe p.close p.completed p.depth]

def reading (p : Period) : Reading :=
  ⟨Gauge.rate (counted p.before) (p.close - p.start), p.completed, p.depth⟩

def answers (p : Period) : List (Option Reading) := p.before.map (fun _ => none) ++ [some p.reading]

end Period

def answer (m : Monitor) : Call → Option Reading × Monitor
  | .record n => (none, m.record n)
  | .observe now completed depth => m.observe now completed depth

/-- The answers to some calls, one by one, and the monitor after them. -/
def answerAll (m : Monitor) : List Call → List (Option Reading) × Monitor
  | [] => ([], m)
  | call :: calls =>
    let (reading, m) := m.answer call
    let (readings, m) := m.answerAll calls
    (reading :: readings, m)

/-- Calls that fall into periods and others that are pending, with their answers and a monitor that
shows the last reading and has counted what is pending. -/
structure Accounts (start interval : Span) (calls : List Call) (answers : List (Option Reading))
    (m : Monitor) (periods : List Period) (pending : List Call) : Prop where
  calls : calls = periods.flatMap Period.calls ++ pending
  answers : answers = periods.flatMap Period.answers ++ pending.map fun _ => none
  joined : start :: periods.map Period.close = periods.map Period.start ++ [m.gauge.start]
  long : ∀ p ∈ periods, p.start + interval ≤ p.close
  early : ∀ p ∈ periods, ∀ call ∈ p.before, call.Before (p.start + interval)
  waiting : ∀ call ∈ pending, call.Before (m.gauge.start + interval)
  interval : m.gauge.interval = interval
  ticks : m.gauge.ticks = counted pending
  shown : m.shown = ((periods.map Period.reading).getLast?).getD .zero

variable {start interval : Span} {calls pending : List Call} {answers : List (Option Reading)}
  {m : Monitor} {periods : List Period}

theorem accounts_ofInterval (start interval : Span) :
    Accounts start interval [] [] (ofInterval start interval) [] [] where
  calls := rfl
  answers := rfl
  joined := rfl
  long := nofun
  early := nofun
  waiting := nofun
  interval := rfl
  ticks := rfl
  shown := rfl

theorem sub_lt_iff {a b c : Nat} (positive : 0 < c) : a - b < c ↔ a < b + c := by
  omega

theorem observe_of_early {now : Span} (early : now - m.gauge.start < m.gauge.interval)
    (completed depth : Nat) : m.observe now completed depth = (none, m) := by
  simp [observe, Gauge.read?, Gauge.elapsed, early]

theorem observe_of_late {now : Span} (late : ¬now - m.gauge.start < m.gauge.interval)
    (completed depth : Nat) :
    m.observe now completed depth =
      (some ⟨Gauge.rate m.gauge.ticks (now - m.gauge.start), completed, depth⟩,
        ⟨{ m.gauge with start := now, ticks := 0 },
          ⟨Gauge.rate m.gauge.ticks (now - m.gauge.start), completed, depth⟩⟩) := by
  simp [observe, Gauge.read?, Gauge.elapsed, late]

namespace Accounts

/-- A call that changes no more than the count is pending. -/
theorem wait (accounts : Accounts start interval calls answers m periods pending) {call : Call}
    (before : call.Before (m.gauge.start + interval)) {next : Monitor}
    (gauge : next.gauge = { m.gauge with ticks := min (m.gauge.ticks + call.ticks) (twoTo 32 - 1) })
    (shown : next.shown = m.shown) :
    Accounts start interval (calls ++ [call]) (answers ++ [none]) next periods
      (pending ++ [call]) where
  calls := by rw [accounts.calls, List.append_assoc]
  answers := by simp [accounts.answers]
  joined := by rw [gauge]; exact accounts.joined
  long := accounts.long
  early := accounts.early
  waiting := by
    rw [gauge]
    simpa [or_imp, forall_and] using ⟨accounts.waiting, before⟩
  interval := by rw [gauge]; exact accounts.interval
  ticks := by
    rw [gauge, accounts.ticks]
    simp only [counted, List.map_append, List.sum_append, List.map_cons, List.map_nil,
      List.sum_cons, List.sum_nil]
    omega
  shown := shown.trans accounts.shown

theorem close (accounts : Accounts start interval calls answers m periods pending) {now : Span}
    (late : m.gauge.start + interval ≤ now) (completed depth : Nat) :
    let p : Period := ⟨m.gauge.start, pending, now, completed, depth⟩
    Accounts start interval (calls ++ [.observe now completed depth])
      (answers ++ [some p.reading]) ⟨{ m.gauge with start := now, ticks := 0 }, p.reading⟩
      (periods ++ [p]) [] := by
  intro p
  exact
    { calls := by simp [accounts.calls, Period.calls, p]
      answers := by simp [accounts.answers, Period.answers, p]
      joined := by simpa [p] using congrArg (· ++ [now]) accounts.joined
      long := by simpa [or_imp, forall_and, p] using ⟨accounts.long, late⟩
      early := by simpa [or_imp, forall_and, p] using ⟨accounts.early, accounts.waiting⟩
      waiting := nofun
      interval := accounts.interval
      ticks := rfl
      shown := by simp }

/-- One more call is pending or ends a period. -/
theorem answer (positive : 0 < interval)
    (accounts : Accounts start interval calls answers m periods pending) (call : Call) :
    ∃ periods pending, Accounts start interval (calls ++ [call]) (answers ++ [(m.answer call).1])
      (m.answer call).2 periods pending := by
  cases call with
  | record n =>
    refine ⟨_, _, accounts.wait ?_ rfl rfl⟩
    intro now completed depth same
    cases same
  | observe now completed depth =>
    have length := accounts.interval
    by_cases early : now - m.gauge.start < m.gauge.interval
    · have before := early
      rw [length, sub_lt_iff positive] at before
      rw [Monitor.answer, observe_of_early early]
      refine ⟨_, _, accounts.wait ?_ ?_ rfl⟩
      · rintro now completed depth same
        cases same
        exact before
      · have kept : min (m.gauge.ticks + 0) (twoTo 32 - 1) = m.gauge.ticks := by
          rw [accounts.ticks]
          exact Nat.min_eq_left (Nat.min_le_right _ _)
        rw [Call.ticks, kept]
    · have late := early
      rw [length, sub_lt_iff positive] at late
      have goes := accounts.close (Nat.le_of_not_lt late) completed depth
      rw [Monitor.answer, observe_of_late early, accounts.ticks]
      exact ⟨_, _, goes⟩

theorem answerAll (positive : 0 < interval)
    (accounts : Accounts start interval calls answers m periods pending) (more : List Call) :
    ∃ periods pending, Accounts start interval (calls ++ more)
      (answers ++ (m.answerAll more).1) (m.answerAll more).2 periods pending := by
  induction more generalizing calls answers m periods pending with
  | nil => exact ⟨periods, pending, by simpa [Monitor.answerAll] using accounts⟩
  | cons call more ih =>
    obtain ⟨_, _, next⟩ := accounts.answer positive call
    simpa [Monitor.answerAll] using ih next

end Accounts

/-- Every tick that is recorded counts in one period or is pending, and every reading is the rate of
its period, a finite number without a minus sign. An observation gives none, and changes nothing,
exactly if less than the interval has passed since the last period ended. -/
theorem answerAll_accounts {interval : Span} (positive : 0 < interval) (start : Span)
    (calls : List Call) :
    let (answers, m) := (ofInterval start interval).answerAll calls
    (∃ periods pending, Accounts start interval calls answers m periods pending ∧
      ∀ p ∈ periods, p.reading.rate.isFinite = true ∧ 0 ≤ p.reading.rate) ∧
    ∀ now completed depth,
      ((m.observe now completed depth).1 = none ↔ now - m.gauge.start < interval) ∧
      (now - m.gauge.start < interval → m.observe now completed depth = (none, m)) := by
  obtain ⟨periods, pending, accounts⟩ :=
    (accounts_ofInterval start interval).answerAll positive calls
  simp only [List.nil_append] at accounts
  generalize (ofInterval start interval).answerAll calls = run at accounts
  obtain ⟨answers, m⟩ := run
  refine ⟨⟨periods, pending, accounts, fun p _ => ?_⟩, fun now completed depth => ?_⟩
  · have few : counted p.before < twoTo 32 :=
      Nat.lt_of_le_of_lt (Nat.min_le_right _ _) (by decide)
    obtain ⟨code, bounded, rate, small⟩ := Gauge.rate_eq_signed few (p.close - p.start)
    simp only [Period.reading, rate]
    exact ⟨decide_eq_true small, Number.zero_le_unsigned⟩
  · rw [← accounts.interval]
    refine ⟨?_, fun early => observe_of_early early completed depth⟩
    by_cases early : now - m.gauge.start < m.gauge.interval
    · simp [observe_of_early early, early]
    · simp [observe_of_late early, early]

/-- A reading too early, a clock that runs backwards, and more ticks than can be counted. -/
theorem backward_clock_ends_no_period :
    let calls := [.record 5, .observe (.ofMillis 500) 1 2, .record 7, .observe (.ofMillis 2000) 3 4,
      .record (twoTo 32 - 1), .observe (.ofMillis 1000) 5 6, .record 9,
      .observe (.ofMillis 4000) 7 8, .record 1]
    let (answers, m) := (ofInterval 0 .second).answerAll calls
    answers = [none, none, none, some ⟨6, 3, 4⟩, none, none, none,
      some ⟨.ofNat (twoTo 31), 7, 8⟩, none] ∧
    m = ⟨⟨.ofMillis 4000, .second, 1⟩, ⟨.ofNat (twoTo 31), 7, 8⟩⟩ ∧
    0 < Span.second ∧ ∃ periods pending, Accounts 0 .second calls answers m periods pending := by
  intro calls
  have positive : 0 < Span.second := by decide
  obtain ⟨⟨periods, pending, accounts, -⟩, -⟩ := answerAll_accounts positive 0 calls
  exact ⟨by decide, by decide +kernel, positive, periods, pending, accounts⟩

end Monitor
end Turtle
