import Turtle.Schedule.Scheduler

/-! Running to idleness.
A run is as many ticks as find something to do, up to its limit. So a run that is cut anywhere, in
the middle of a move or at its end, and is then taken up again comes to the same as one run, and
nothing is said here of whether a run ever gets to idleness. -/
namespace Turtle.Scheduler

/-- A number of ticks that all find something to do. -/
structure Leads (s : Scheduler) (dt : Single) (n : Nat) (t : Scheduler) : Prop where
  ticks : s.ticks dt n = t
  busy : ∀ m < n, (s.ticks dt m).isIdle = false

variable {s t u : Scheduler} {dt : Single} {m n limit : Nat}

theorem Leads.refl (s : Scheduler) (dt : Single) : s.Leads dt 0 s where
  ticks := rfl
  busy m impossible := absurd impossible (Nat.not_lt_zero m)

theorem Leads.of_tick (busy : s.isIdle = false) (later : (s.tick dt).Leads dt n t) :
    s.Leads dt (n + 1) t where
  ticks := later.ticks
  busy m less := by
    cases m with
    | zero => exact busy
    | succ m => exact later.busy m (Nat.lt_of_succ_lt_succ less)

theorem Leads.trans (first : s.Leads dt m t) (second : t.Leads dt n u) :
    s.Leads dt (m + n) u := by
  induction m generalizing s with
  | zero =>
    cases first.ticks
    rw [Nat.zero_add]
    exact second
  | succ m ih =>
    rw [Nat.succ_add]
    have rest : (s.tick dt).Leads dt m t :=
      ⟨first.ticks, fun k less => first.busy (k + 1) (Nat.succ_lt_succ less)⟩
    exact .of_tick (first.busy 0 (Nat.succ_pos m)) (ih rest)

/-- The first tick decides all that follows. -/
theorem Leads.of_tick_eq (same : s.tick dt = t.tick dt) (busy : s.isIdle = false) (some : 0 < n)
    (leads : t.Leads dt n u) : s.Leads dt n u := by
  cases n with
  | zero => cases some
  | succ n =>
    have later : (t.tick dt).Leads dt n u :=
      ⟨leads.ticks, fun m less => leads.busy (m + 1) (Nat.succ_lt_succ less)⟩
    rw [← same] at later
    exact .of_tick busy later

/-- What a run does within a limit: nothing but ticks that find something to do, and it leaves off
before the limit only at idleness. -/
structure Runs (s : Scheduler) (dt : Single) (limit n : Nat) (t : Scheduler) : Prop where
  within : n ≤ limit
  leads : s.Leads dt n t
  ends : n < limit → t.isIdle = true

theorem runFrom_runs (dt : Single) (used limit : Nat) (s : Scheduler) :
    ∃ n t, runFrom dt used limit s = (used + n, t) ∧ s.Runs dt limit n t := by
  induction limit generalizing used s with
  | zero => exact ⟨0, s, rfl, Nat.le_refl 0, .refl s dt, fun less => absurd less (Nat.lt_irrefl 0)⟩
  | succ limit ih =>
    unfold runFrom
    cases idle : s.isIdle with
    | true => exact ⟨0, s, rfl, Nat.zero_le _, .refl s dt, fun _ => idle⟩
    | false =>
      obtain ⟨n, t, same, runs⟩ := ih (used + 1) (s.tick dt)
      refine ⟨n + 1, t, ?_, Nat.succ_le_succ runs.within, .of_tick idle runs.leads, ?_⟩
      · rw [Nat.add_right_comm] at same
        exact same
      · exact fun less => runs.ends (Nat.lt_of_succ_lt_succ less)

theorem run_runs (s : Scheduler) (dt : Single) (limit : Nat) :
    s.Runs dt limit (s.run dt limit).1 (s.run dt limit).2 := by
  obtain ⟨n, t, same, runs⟩ := runFrom_runs dt 0 limit s
  unfold run
  rw [same, Nat.zero_add]
  exact runs

/-- The limit and the ticks decide where a run leaves off. -/
theorem Runs.le (runs : s.Runs dt limit n t) (others : s.Runs dt limit m u) : n ≤ m := by
  apply Nat.le_of_not_lt
  intro less
  have idle := others.ends (Nat.lt_of_lt_of_le less runs.within)
  have busy := runs.leads.busy m less
  rw [others.leads.ticks, idle] at busy
  cases busy

theorem Runs.run_eq (runs : s.Runs dt limit n t) : s.run dt limit = (n, t) := by
  have actual := s.run_runs dt limit
  have count : (s.run dt limit).1 = n := Nat.le_antisymm (actual.le runs) (runs.le actual)
  refine Prod.ext count ?_
  rw [← actual.leads.ticks, ← runs.leads.ticks, count]

theorem Runs.add {a b : Nat} (first : s.Runs dt a m t) (second : t.Runs dt b n u) :
    s.Runs dt (a + b) (m + n) u where
  within := Nat.add_le_add first.within second.within
  leads := first.leads.trans second.leads
  ends less := by
    rcases Nat.lt_or_ge n b with early | late
    · exact second.ends early
    · have idle : t.isIdle = true := first.ends (by omega)
      rw [← second.leads.ticks, ticks_of_isIdle idle]
      exact idle

theorem run_eq_ticks (s : Scheduler) (dt : Single) (limit : Nat) :
    (s.run dt limit).2 = s.ticks dt (s.run dt limit).1 :=
  (s.run_runs dt limit).leads.ticks.symm

/-- What a tick has to do: it resumes the move under way, and leaves the queue alone, or it takes
the first line off the queue and begins with it. -/
inductive Proceeds (s : Scheduler) (dt : Single) : Prop where
  | resumes (move : Underway) :
      s.underway = some move → (s.tick dt).queue = s.queue →
      s.tick dt = s.conclude (s.stage.resume dt move) → Proceeds s dt
  | starts (line : String) :
      s.underway = none → s.queue = line :: (s.tick dt).queue →
      s.tick dt = { s with queue := s.queue.tail }.conclude (s.stage.perform dt (.ofLine line)) →
      Proceeds s dt

theorem proceeds_of_busy (busy : s.isIdle = false) (dt : Single) : s.Proceeds dt := by
  obtain ⟨stage, queue, underway, outbox, completed⟩ := s
  cases underway with
  | some move => exact .resumes move rfl rfl rfl
  | none =>
    cases queue with
    | nil => cases busy
    | cons line rest => exact .starts line rfl rfl rfl

/-- Two runs in a row come to one run with both limits together. The ticks of a run are those it
counts, no more than its limit; each of them resumes a move or takes a line, none comes after
idleness, and a run that stays below its limit has got there. Ticks of an idle scheduler do
nothing. -/
theorem run_while_busy (s : Scheduler) (dt : Single) :
    (∀ a b, let first := s.run dt a
      let second := first.2.run dt b
      s.run dt (a + b) = (first.1 + second.1, second.2)) ∧
    (∀ limit, let n := (s.run dt limit).1
      n ≤ limit ∧ (s.run dt limit).2 = s.ticks dt n ∧
      (∀ m < n, (s.ticks dt m).isIdle = false ∧ (s.ticks dt m).Proceeds dt) ∧
      (n < limit → (s.run dt limit).2.isIdle = true)) ∧
    (s.isIdle = true → ∀ n, s.ticks dt n = s) := by
  refine ⟨?_, ?_, fun idle n => ticks_of_isIdle idle dt n⟩
  · intro a b first second
    exact ((s.run_runs dt a).add (first.2.run_runs dt b)).run_eq
  · intro limit n
    have runs := s.run_runs dt limit
    refine ⟨runs.within, s.run_eq_ticks dt limit, ?_, runs.ends⟩
    intro m less
    have busy := runs.leads.busy m less
    exact ⟨busy, proceeds_of_busy busy dt⟩

/-- The first run ends in the middle of a move, the second with the line behind it. -/
example :
    let s := ["A=Turtle()", "A.fd(2)", "p=A.position()"].foldl (fun s line => (s.submit line).2)
      (ofRules .standard)
    (s.run 1 2).1 = 2 ∧ (s.run 1 2).2.isBusy = true ∧
      ((s.run 1 2).2.run 1 9).1 = 2 ∧ s.run 1 11 = (4, ((s.run 1 2).2.run 1 9).2) := by
  decide +kernel

end Turtle.Scheduler
