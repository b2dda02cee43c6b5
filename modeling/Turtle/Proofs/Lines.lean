import Turtle.Proofs.Frames
import Turtle.Source

/-! What a source of bytes comes to.
Its lines are cut after each line feed. They count up to the first one that is not UTF-8, and what
is left of them without white space is submitted line by line, unless nothing is left. A carriage
return before a line feed, like the line feed itself, is white space. -/
namespace Turtle.Source

/-- Bytes cut after each line feed: it ends every piece but the last, and stands nowhere else than
at the end of a piece. -/
structure Cut (bytes : Text.Bytes) (pieces : List Text.Bytes) : Prop where
  whole : pieces.flatten = bytes
  proper : ∀ piece ∈ pieces, piece ≠ []
  single : ∀ piece ∈ pieces, lineFeed ∉ piece.dropLast
  ended : ∀ piece ∈ pieces.dropLast, piece.getLast? = some lineFeed

variable {bytes : Text.Bytes} {pieces : List Text.Bytes}

theorem Cut.prepend (cut : Cut bytes pieces) (b : UInt8) : Cut (b :: bytes) (prepend b pieces) := by
  obtain ⟨rfl, proper, single, ended⟩ := cut
  unfold Source.prepend
  split
  · rename_i feed
    subst feed
    refine ⟨rfl, by simpa using proper, by simpa using single, ?_⟩
    cases pieces with
    | nil => exact List.forall_mem_nil _
    | cons piece more => simpa using ended
  · rename_i plain
    cases pieces with
    | nil => exact ⟨rfl, by simp, by simp, by simp⟩
    | cons piece more =>
      obtain ⟨filled, later⟩ := List.forall_mem_cons.mp proper
      obtain ⟨only, others⟩ := List.forall_mem_cons.mp single
      refine ⟨rfl, by simpa using later, ?_, ?_⟩
      · refine List.forall_mem_cons.mpr ⟨?_, others⟩
        simpa [List.dropLast_cons_of_ne_nil filled, Ne.symm plain] using only
      · cases more with
        | nil => exact List.forall_mem_nil _
        | cons next more =>
          obtain ⟨closed, rest⟩ := List.forall_mem_cons.mp ended
          refine List.forall_mem_cons.mpr ⟨?_, rest⟩
          simp [List.getLast?_cons, closed]

theorem cut_lines (bytes : Text.Bytes) : Cut bytes (lines bytes) := by
  induction bytes with
  | nil =>
    exact ⟨rfl, List.forall_mem_nil _, List.forall_mem_nil _, List.forall_mem_nil _⟩
  | cons b bytes ih => exact ih.prepend b

/-- The pieces before the first that is not UTF-8, as text. -/
def texts (pieces : List Text.Bytes) : List (List Char) :=
  ((pieces.map Text.decode?).takeWhile Option.isSome).filterMap id

/-- What is left of the texts without white space, wherever something is left. -/
def commandsOf (pieces : List Text.Bytes) : List String :=
  (((texts pieces).map Text.compact).filter (· ≠ [])).map String.ofList

def commands (bytes : Text.Bytes) : List String := commandsOf (lines bytes)

@[simp] theorem commandsOf_nil : commandsOf [] = [] := rfl

theorem commandsOf_cons_of_stray {piece : Text.Bytes} (stray : Text.decode? piece = none)
    (pieces : List Text.Bytes) : commandsOf (piece :: pieces) = [] := by
  simp [commandsOf, texts, stray]

theorem commandsOf_cons_of_text {piece : Text.Bytes} {text : List Char}
    (decoded : Text.decode? piece = some text) (pieces : List Text.Bytes) :
    commandsOf (piece :: pieces) = (compact? (.ofList text)).toList ++ commandsOf pieces := by
  by_cases blank : Text.compact text = []
  · simp [commandsOf, texts, decoded, compact?, blank]
  · simp [commandsOf, texts, decoded, compact?, blank]

theorem accepts_of_compact? {raw command : String} (left : compact? raw = some command) :
    Scheduler.accepts command = true := by
  simp only [compact?, Option.ite_none_left_eq_some, Option.some.injEq] at left
  obtain ⟨filled, rfl⟩ := left
  have again : Text.compact (Text.compact raw.toList) = Text.compact raw.toList := by
    simp [Text.compact]
  rw [← again, Text.compact_eq_nil_iff, Bool.not_eq_true] at filled
  simp [Scheduler.accepts, filled]

theorem exists_compact?_of_mem {command : String} (member : command ∈ commandsOf pieces) :
    ∃ raw, compact? raw = some command := by
  simp only [commandsOf, List.mem_map, List.mem_filter] at member
  obtain ⟨text, ⟨⟨raw, _, rfl⟩, filled⟩, rfl⟩ := member
  exact ⟨.ofList raw, by simpa [compact?] using filled⟩

theorem accepts_of_mem_commandsOf {command : String} (member : command ∈ commandsOf pieces) :
    Scheduler.accepts command = true := by
  obtain ⟨raw, left⟩ := exists_compact?_of_mem member
  exact accepts_of_compact? left

theorem submitLines_eq (pieces : List Text.Bytes) (count : Nat) (s : Scheduler) :
    submitLines pieces count s =
      ⟨count + (commandsOf pieces).length, pieces.all fun piece => (Text.decode? piece).isSome,
        s.enqueue (commandsOf pieces)⟩ := by
  induction pieces generalizing count s with
  | nil => simp [submitLines]
  | cons piece pieces ih =>
    unfold submitLines
    cases decoded : Text.decode? piece with
    | none => simp [commandsOf_cons_of_stray decoded, decoded]
    | some text =>
      rw [commandsOf_cons_of_text decoded]
      cases left : compact? (.ofList text) with
      | none => simp [ih, left, decoded]
      | some command =>
        simp [ih, left, decoded, Scheduler.submit_eq, accepts_of_compact? left, Scheduler.enqueue,
          Nat.add_assoc, Nat.add_comm 1]

theorem pump_eq (bytes : Text.Bytes) (s : Scheduler) :
    (pump bytes s).scheduler = s.enqueue (commands bytes) := by
  simp only [pump, submitLines_eq, commands]

end Turtle.Source
