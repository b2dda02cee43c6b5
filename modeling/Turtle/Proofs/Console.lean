import Turtle.Proofs.Reading
import Turtle.Proofs.Reports

/-! What a user sees of commands.
A query that is answered and a command that fails print one line each, a spawn and a move that do
their work print nothing. A line is printed out of pieces of the command, numbers and fixed words,
so it is a single line whenever the command was one. -/
namespace Turtle

/-- A text without a line feed. -/
def Inline (text : String) : Prop := '\n' ∉ text.toList

instance (text : String) : Decidable (Inline text) :=
  inferInstanceAs (Decidable ('\n' ∉ text.toList))

@[simp] theorem inline_append (text more : String) :
    Inline (text ++ more) ↔ Inline text ∧ Inline more := by
  simp [Inline]

theorem inline_ofList {text : List Char} (plain : '\n' ∉ text) : Inline (.ofList text) := by
  simpa [Inline] using plain

theorem inline_of_inside {word text : String} (inside : word.toList <:+: text.toList)
    (inline : Inline text) : Inline word :=
  fun feed => inline (inside.subset feed)

theorem not_mem_toDigits (n : Nat) : '\n' ∉ Nat.toDigits 10 n := by
  intro feed
  have digit := Nat.isDigit_of_mem_toDigits (b := 10) (by decide) (by decide) feed
  exact absurd digit (by decide)

theorem inline_toString (n : Nat) : Inline (toString n) := inline_ofList (not_mem_toDigits n)

theorem Number.not_mem_padded (width n : Nat) : '\n' ∉ padded width n := by
  simp [padded, Layout.zeros, not_mem_toDigits]

theorem Number.inline_hundredths {F : Format} (x : Number F) : Inline x.hundredths := by
  cases x with
  | nan => exact (by decide : Inline "NaN")
  | signed negative code bounded =>
    have sign : Inline (signText negative) := by cases negative <;> decide
    refine (inline_append _ _).mpr ⟨sign, ?_⟩
    split
    · decide
    · apply inline_ofList
      simp [not_mem_toDigits, not_mem_padded]

theorem Vec.inline_text (v : Vec) : Inline v.text := by
  have comma : Inline "," := by decide
  have start : Inline "(" := by decide
  have close : Inline ")" := by decide
  simp [Vec.text, Number.inline_hundredths, comma, start, close]

namespace Command

def words : Command → List String
  | spawn name => [name]
  | query into actor => [into, actor]
  | move actor _ => [actor]
  | malformedMove actor operand => [actor, operand]
  | unrecognized line => [line]

theorem Moves.inside {text actor operand : List Char} (moves : Moves text actor operand) :
    actor <:+: text ∧ operand <:+: text := by
  obtain ⟨body, rfl, cut | ⟨_, cut⟩⟩ := moves
  all_goals
    rw [cut.split]
    constructor
    · exact ⟨[], _, by simp; rfl⟩
    · exact ⟨_, [')'], rfl⟩

/-- Whatever a command keeps stands in its line. -/
theorem inside_of_mem_words {line word : String} (kept : word ∈ (ofLine line).words) :
    word.toList <:+: line.toList := by
  have reading := reading_ofLine line
  revert kept
  generalize ofLine line = c at reading
  cases reading with
  | spawn name spawns =>
    obtain ⟨rest, split, _⟩ := spawns
    simp only [words, List.mem_singleton]
    rintro rfl
    exact ⟨[], _, split.symm⟩
  | query into actor queries =>
    obtain ⟨rest, split, _⟩ := queries
    simp only [words, List.mem_cons, List.not_mem_nil, or_false]
    rintro (rfl | rfl)
    · exact ⟨[], _, split.symm⟩
    · exact ⟨into.toList ++ ['='], '.' :: rest, by simp [split]⟩
  | move actor operand distance _ moves _ =>
    simp only [words, List.mem_singleton]
    rintro rfl
    exact moves.inside.1
  | malformedMove actor operand _ moves _ =>
    simp only [words, List.mem_cons, List.not_mem_nil, or_false]
    rintro (rfl | rfl)
    · exact moves.inside.1
    · exact moves.inside.2
  | unrecognized _ _ =>
    simp only [words, List.mem_singleton]
    rintro rfl
    exact List.infix_rfl

/-- What a command prints that is told of by some events. -/
inductive Prints : Command → List Event → List String → Prop where
  | spawned (name : String) (slot : Slot) (position : Vec) :
      Prints (.spawn name) [.spawned name slot position, .idling name slot] []
  | answered (into actor : String) (position : Vec) :
      Prints (.query into actor) [.readBack into position] [into ++ "=" ++ position.text]
  | moved (actor : String) (distance : Single) (stops : List Vec) (goal : Vec) :
      Prints (.move actor distance)
        (.moveStarted actor distance :: (stops.map (.moveStepped actor) ++
          [.moveCompleted actor goal])) []
  | failed {c : Command} (failure : Failure) :
      c.Fails failure → Prints c [.failed failure] ["error: " ++ failure.message]

variable {c : Command} {failure : Failure} {block : List Event} {shown : List String}

theorem Report.prints (report : c.Report block) :
    c.Prints block (block.filterMap Event.consoleLine?) := by
  cases report with
  | spawned name slot position => exact .spawned name slot position
  | answered into actor position => exact .answered into actor position
  | moved actor distance stops goal =>
    have silent : (Event.moveStarted actor distance :: (stops.map (.moveStepped actor) ++
        [.moveCompleted actor goal])).filterMap Event.consoleLine? = [] := by
      simp [List.filterMap_cons, List.filterMap_map, Function.comp_def, Event.consoleLine?]
    rw [silent]
    exact .moved actor distance stops goal
  | failed failure fails => exact .failed failure fails

theorem Fails.inline (fails : c.Fails failure) (inline : ∀ word ∈ c.words, Inline word) :
    Inline failure.message := by
  cases fails with
  | spawn name capacity =>
    have digits := inline_toString capacity
    dsimp only [Failure.message]
    simp_all [words, Inline]
  | _ =>
    dsimp only [Failure.message]
    simp_all [words, Inline]

theorem Prints.inline {line : String} (prints : (ofLine line).Prints block shown)
    (inline : Inline line) : ∀ text ∈ shown, Inline text := by
  have kept : ∀ word ∈ (ofLine line).words, Inline word :=
    fun word member => inline_of_inside (inside_of_mem_words member) inline
  revert prints kept
  generalize ofLine line = c
  intro prints kept
  cases prints with
  | spawned name slot position => exact List.forall_mem_nil _
  | answered into actor position =>
    have target := kept into List.mem_cons_self
    have place := position.inline_text
    simp_all [Inline]
  | moved actor distance stops goal => exact List.forall_mem_nil _
  | failed failure fails =>
    have message := fails.inline kept
    simp_all [Inline]

end Command

/-- What lines print, one after the other, given all that is told of them. -/
inductive Printed : List String → List Event → List String → Prop where
  | nil : Printed [] [] []
  | cons {line : String} {lines : List String} {block events : List Event}
      {shown printed : List String} :
      (Command.ofLine line).Prints block shown → Printed lines events printed →
      Printed (line :: lines) (block ++ events) (shown ++ printed)

namespace Printed

variable {lines printed : List String} {events : List Event}

theorem of_reported {blocks : List (List Event)}
    (reported : List.Forall₂ (fun line block => (Command.ofLine line).Report block) lines blocks) :
    Printed lines blocks.flatten (blocks.flatten.filterMap Event.consoleLine?) := by
  induction reported with
  | nil => exact .nil
  | cons report _ ih =>
    rw [List.flatten_cons, List.filterMap_append]
    exact .cons report.prints ih

theorem inline (prints : Printed lines events printed) (all : ∀ line ∈ lines, Inline line) :
    ∀ text ∈ printed, Inline text := by
  induction prints with
  | nil => exact List.forall_mem_nil _
  | cons first _ ih =>
    obtain ⟨here, later⟩ := List.forall_mem_cons.mp all
    exact List.forall_mem_append.mpr ⟨first.inline here, ih later⟩

end Printed

/-- Once nothing waits or moves, every accepted line has been told of and has printed its part. -/
theorem History.Reached.printed {permitted : Single → Prop} {rules : Rules} {h : History}
    (reached : Reached permitted rules h) (idle : h.scheduler.isIdle = true) :
    Printed h.accepted h.emitted (h.emitted.filterMap Event.consoleLine?) := by
  obtain ⟨done, blocks, rest, tells⟩ := reached.tells
  rw [Scheduler.isIdle_iff] at idle
  have emitted := tells.emitted
  cases tells.phase with
  | resting _ waiting =>
    rw [idle.2, List.append_nil] at waiting
    rw [List.append_nil] at emitted
    rw [waiting, emitted]
    exact .of_reported tells.reported
  | midway _ _ _ _ busy => cases idle.1.symm.trans busy

end Turtle
