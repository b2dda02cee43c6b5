import Turtle.Proofs.Opening
import Turtle.Proofs.Shell

/-! What the program prints.
Once it has what it needs, it prints a line for every query and for every command that fails, in the
order of the source, as long as every move that is carried out comes to its end. White space in the
source has no part in it. -/
namespace Turtle.Program

def text (lines : List String) : String := String.join (lines.map fun line => line ++ "\n")

/-- Within a number of ticks the session of a host comes to its end. -/
def Ends (h : Host) (limit : Nat) : Prop :=
  ∃ dt session, begin h = .ok (dt, session) ∧
    (session.settle dt limit).scheduler.isIdle = true

variable {h : Host} {config : Config} {bytes : Text.Bytes}

def interpretation (config : Config) (bytes : Text.Bytes) (patience : Nat) : Transcript :=
  .interpret config.rules (Pacer.ofPace config.pace).dt patience (Source.commands bytes)

/-- The ways in which a program shows some lines as the outcome of its source: as the parts of its
commands, in order, after as many ticks as there are events, and whenever a reader and frames of any
lengths have come to an end with it. -/
structure Shows (h : Host) (config : Config) (bytes : Text.Bytes) (t : Transcript)
    (printed : List String) : Prop where
  parts : Printed (Source.commands bytes) t.events printed
  inline : ∀ line ∈ printed, Inline line
  run : ∀ limit, t.events.length ≤ limit → Ends h limit ∧ run h limit = ⟨0, text printed⟩
  ends : ∀ s, Shell.Runs (.start config bytes) s → s.unread = [] →
    ∀ n, t.events.length ≤ n → (s.session.scheduler.ticks s.pacer.dt n).isIdle = true
  output : ∀ s, Shell.Runs (.start config bytes) s → s.Ended → output s.session = text printed

theorem inline_of_mem_commands {command : String} (member : command ∈ Source.commands bytes) :
    Inline command := by
  obtain ⟨raw, left⟩ := Source.exists_compact?_of_mem member
  simp only [Source.compact?, Option.ite_none_left_eq_some, Option.some.injEq] at left
  obtain ⟨_, rfl⟩ := left
  apply inline_ofList
  simp [Text.compact, Text.isBlank]

theorem runs_opening (config : Config) (bytes : Text.Bytes) :
    Shell.Runs (.start config bytes) ⟨.ofPace config.pace, opening config bytes, [], none⟩ :=
  Shell.runs_read _ _ _

theorem ended_settle (small : config.maxTicksPerFrame ≤ 512) {patience : Nat}
    (free : (interpretation config bytes patience).underway = none) {limit : Nat}
    (enough : (interpretation config bytes patience).events.length ≤ limit) :
    Shell.Ended ⟨.ofPace config.pace,
      (opening config bytes).settle (Pacer.ofPace config.pace).dt limit, [], none⟩ where
  read := rfl
  between := rfl
  idle := by
    obtain ⟨_, records⟩ := (runs_opening config bytes).records small
    have idle := records.isIdle_ticks free rfl enough
    obtain ⟨outbox, settled⟩ := Session.scheduler_settle (s := opening config bytes) rfl
      (Pacer.ofPace config.pace).dt limit
    rw [settled]
    exact idle

theorem consoleLines_settle (small : config.maxTicksPerFrame ≤ 512) {patience : Nat}
    (free : (interpretation config bytes patience).underway = none) {limit : Nat}
    (enough : (interpretation config bytes patience).events.length ≤ limit) :
    let told := (interpretation config bytes patience).events
    ((opening config bytes).settle (Pacer.ofPace config.pace).dt limit).consoleLines
        = told.filterMap Event.consoleLine? ∧
      Printed (Source.commands bytes) told (told.filterMap Event.consoleLine?) := by
  obtain ⟨_, opened⟩ := (runs_opening config bytes).records small
  obtain ⟨_, records⟩ := opened.settle limit
  exact records.printed free (ended_settle small free enough)

theorem shows_of_free (serves : h.Serves config bytes) (small : config.maxTicksPerFrame ≤ 512)
    {patience : Nat}
    (free : (interpretation config bytes patience).underway = none) :
    Shows h config bytes (interpretation config bytes patience)
      ((interpretation config bytes patience).events.filterMap Event.consoleLine?) := by
  have parts := (consoleLines_settle small free (Nat.le_refl _)).2
  refine ⟨parts, parts.inline fun _ => inline_of_mem_commands, ?_, ?_, ?_⟩
  · intro limit enough
    refine ⟨⟨_, _, begin_of_serves serves, (ended_settle small free enough).idle⟩, ?_⟩
    rw [run_of_serves serves, output, (consoleLines_settle small free enough).1]
    rfl
  · intro s runs read n enough
    obtain ⟨_, records⟩ := runs.records small
    rw [records.steady]
    exact records.isIdle_ticks free read enough
  · intro s runs ended
    obtain ⟨_, records⟩ := runs.records small
    rw [output, (records.printed free ended).1]
    rfl

/-- The outcome of a run that has come to its end depends on the commands of its source only. -/
theorem output_eq_of_ended (small : config.maxTicksPerFrame ≤ 512) {others : Text.Bytes}
    (same : Source.commands others = Source.commands bytes) {s u : Shell}
    (runs : Shell.Runs (.start config bytes) s) (also : Shell.Runs (.start config others) u)
    (ended : s.Ended) (alsoEnded : u.Ended) : output u.session = output s.session := by
  obtain ⟨h, records⟩ := runs.records small
  obtain ⟨_, other⟩ := also.records small
  rw [same] at other
  obtain ⟨accepted, _, idle⟩ := records.of_ended ended
  have free := ((records.reached.refines (h.emitted.length + 1) (Nat.lt_succ_self _)).2 idle).1
  rw [accepted] at free
  rw [output, output, (records.printed free ended).1, (other.printed free alsoEnded).1]

end Turtle.Program
