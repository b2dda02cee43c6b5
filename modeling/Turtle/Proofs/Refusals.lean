import Turtle.Proofs.Coherence

/-! Which commands fail, and for what reason.
A refusal leaves the stage as it is. Nothing is said of a command that is not refused, except that no
failure is told of it. -/
namespace Turtle

namespace Stage

variable {s : Stage} {dt : Single} {c : Command} {failure : Failure}

@[simp] theorem failed_mem_fail {other : Failure} :
    .failed failure ∈ (s.fail other).events ↔ failure = other := by
  simp [fail]

theorem not_failed_depart (move : Underway) (distance : Single) (actor : Actor) :
    .failed failure ∉ (s.depart dt move distance actor).events := by
  cases status : ((actor.setOff distance s.rules.speed).step dt).2 with
  | running => simp [depart_of_running status]
  | complete => simp [depart_of_complete status]

/-- A failure is told only of a command that is refused with it. -/
theorem refuses_of_failed (packed : s.pool.Packed) (bound : s.Bound)
    (told : .failed failure ∈ (s.perform dt c).events) : s.Refuses c failure := by
  have performs := performs packed bound dt c
  generalize s.perform dt c = outcome at performs told
  cases performs with
  | refused other refuses =>
    cases failed_mem_fail.mp told
    exact refuses
  | enrolled name room => simp [enroll] at told
  | answered into name slot actor named held => simp at told
  | departed name distance slot actor named held => exact absurd told (not_failed_depart _ _ _)

end Stage

namespace Scheduler

/-- What a tick does with a line that is refused: the line is taken and counted, its failure is
reported, and everything else stays. -/
def refuse (s : Scheduler) (rest : List String) (failure : Failure) : Scheduler :=
  { s with
    queue := rest
    outbox := s.outbox.push (.failed failure)
    completed := countUp s.completed }

variable {s : Scheduler} {line : String} {rest : List String} {failure : Failure}

theorem tick_of_refused (coherent : s.Coherent) (free : s.underway = none)
    (queued : s.queue = line :: rest) (refuses : s.stage.Refuses (.ofLine line) failure)
    (dt : Single) : s.tick dt = s.refuse rest failure ∧ s.emits dt = [.failed failure] := by
  have bound : s.stage.Bound := Stage.Coherent.boundInUse coherent
  obtain ⟨next, told⟩ := tick_of_line free queued dt
  rw [refuses.perform_eq bound dt] at next told
  refine ⟨?_, told⟩
  simp only [next, conclude, Stage.fail, Outbox.pushAll, List.foldl_cons, List.foldl_nil, refuse,
    Option.isSome_none, Bool.false_eq_true, if_false, free]

/-- However a scheduler is driven, the first line of its queue, when nothing is under way, is told
of with a failure exactly if the stage refuses its command with that failure. Then the failure is
all that is told, the line leaves the queue and is counted, and the stage is untouched: its slots,
its names and its variables. -/
theorem emits_failed_iff_refuses (rules : Rules) (list : List Act) (dt : Single)
    (free : ((ofRules rules).acts list).underway = none)
    (queued : ((ofRules rules).acts list).queue = line :: rest) :
    let s := (ofRules rules).acts list
    (∀ failure, .failed failure ∈ s.emits dt ↔ s.stage.Refuses (.ofLine line) failure) ∧
    ∀ failure, .failed failure ∈ s.emits dt →
      s.emits dt = [.failed failure] ∧ s.tick dt = s.refuse rest failure ∧
      (s.tick dt).stage = s.stage ∧ (s.tick dt).isBusy = false ∧
      (s.completed + 1 < twoTo 64 → (s.tick dt).completed = s.completed + 1) := by
  intro s
  have coherent : s.Coherent := by
    have reached := (History.reached_acts rules list).coherent
    rwa [History.scheduler_acts] at reached
  have classified (failure : Failure) :
      .failed failure ∈ s.emits dt ↔ s.stage.Refuses (.ofLine line) failure := by
    constructor
    · intro told
      rw [(tick_of_line free queued dt).2] at told
      exact Stage.refuses_of_failed (Stage.Coherent.packed coherent)
        (Stage.Coherent.boundInUse coherent) told
    · intro refuses
      simp [(tick_of_refused coherent free queued refuses dt).2]
  refine ⟨classified, fun failure told => ?_⟩
  obtain ⟨next, only⟩ :=
    tick_of_refused coherent free queued ((classified failure).mp told) dt
  refine ⟨only, next, by rw [next]; rfl, ?_, fun few => ?_⟩
  · simp [next, refuse, isBusy, s, free]
  · simp only [next, refuse, countUp]
    omega

/-- The only slot is taken, and a further line waits behind the spawn that is refused. -/
theorem full_pool_refuses_spawn :
    let list : List Act := [.submit "A=Turtle()", .tick 1, .submit "B=Turtle()", .submit "A.fd(1)"]
    let s := (ofRules ⟨1, 1, .zero⟩).acts list
    s.underway = none ∧ s.queue = ["B=Turtle()", "A.fd(1)"] ∧
      s.emits 1 = [.failed (.poolExhausted "B" 1)] ∧
      s.tick 1 = s.refuse ["A.fd(1)"] (.poolExhausted "B" 1) := by
  intro list s
  have free : s.underway = none := by decide +kernel
  have queued : s.queue = ["B=Turtle()", "A.fd(1)"] := by decide +kernel
  have told : .failed (.poolExhausted "B" 1) ∈ s.emits 1 := by decide +kernel
  obtain ⟨only, next, _⟩ := (emits_failed_iff_refuses ⟨1, 1, .zero⟩ list 1 free queued).2 _ told
  exact ⟨free, queued, only, next⟩

end Scheduler
end Turtle
