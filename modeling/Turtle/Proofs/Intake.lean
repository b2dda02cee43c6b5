import Mathlib.Data.List.DropRight
import Turtle.Proofs.Lines
import Turtle.Proofs.Utf8

/-! What a source leaves in the queue.
There is one way to cut bytes after each line feed. The pieces count up to the first that is no text
in UTF-8, and each of them with something other than white space adds one line to the queue: its
other characters, in order. Nothing that is left of a line is ever refused. -/
namespace Turtle

/-- Trimming a text leaves nothing exactly if all of it is blank. -/
theorem Text.trim_eq_nil_iff {text : List Char} : trim text = [] ↔ isAllBlank text = true := by
  have trimmed : trim text = (text.dropWhile isBlank).rdropWhile isBlank := rfl
  rw [trimmed, List.rdropWhile_eq_nil_iff, isAllBlank, List.all_eq_true]
  constructor
  · intro blank
    cases rest : text.dropWhile isBlank with
    | nil => exact List.dropWhile_eq_nil_iff.mp rest
    | cons c more =>
      have solid := List.head?_dropWhile_not isBlank text
      rw [rest] at solid blank
      simp [blank c List.mem_cons_self] at solid
  · intro blank c inside
    exact blank c ((List.dropWhile_sublist isBlank).subset inside)

namespace Source

variable {bytes : Text.Bytes} {pieces others : List Text.Bytes}

theorem lines_cons (b : UInt8) (bytes : Text.Bytes) :
    lines (b :: bytes) = prepend b (lines bytes) :=
  rfl

theorem lines_append_lineFeed {front : Text.Bytes} (plain : lineFeed ∉ front) (rest : Text.Bytes) :
    lines (front ++ lineFeed :: rest) = (front ++ [lineFeed]) :: lines rest := by
  induction front with
  | nil => simp [lines_cons, prepend]
  | cons b front ih =>
    simp only [List.mem_cons, not_or] at plain
    simp [lines_cons, ih plain.2, prepend, Ne.symm plain.1]

theorem lines_of_plain {front : Text.Bytes} (plain : lineFeed ∉ front) (proper : front ≠ []) :
    lines front = [front] := by
  induction front with
  | nil => exact absurd rfl proper
  | cons b front ih =>
    simp only [List.mem_cons, not_or] at plain
    cases front with
    | nil => simp [lines, prepend, Ne.symm plain.1]
    | cons c front => rw [lines_cons, ih plain.2 nofun, prepend, if_neg (Ne.symm plain.1)]

/-- Bytes can be cut after each line feed in one way only. -/
theorem Cut.eq_lines (cut : Cut bytes pieces) : pieces = lines bytes := by
  obtain ⟨rfl, proper, single, ended⟩ := cut
  induction pieces with
  | nil => rfl
  | cons piece pieces ih =>
    obtain ⟨filled, properLater⟩ := List.forall_mem_cons.mp proper
    obtain ⟨plain, singleLater⟩ := List.forall_mem_cons.mp single
    have whole := List.dropLast_append_getLast filled
    cases pieces with
    | nil =>
      by_cases feed : piece.getLast filled = lineFeed
      · have goes := lines_append_lineFeed plain []
        rw [feed] at whole
        simp only [whole] at goes
        simpa [lines] using goes.symm
      · have plain : lineFeed ∉ piece := by
          rw [← whole]
          simp [plain, Ne.symm feed]
        simp [lines_of_plain plain filled]
    | cons next pieces =>
      obtain ⟨feed, endedLater⟩ := List.forall_mem_cons.mp ended
      obtain ⟨front, rfl⟩ := List.getLast?_eq_some_iff.mp feed
      rw [List.dropLast_concat] at plain
      rw [List.flatten_cons, List.append_assoc, List.singleton_append, lines_append_lineFeed plain,
        ← ih properLater singleLater endedLater]

/-- Some texts, and then nothing more or a piece that is not UTF-8. -/
structure Opens (pieces : List Text.Bytes) (texts : List (List Char)) (rest : List Text.Bytes) :
    Prop where
  split : pieces = texts.map Text.encode ++ rest
  stray : ∀ piece ∈ rest.head?, ∀ text, piece ≠ Text.encode text

theorem texts_cons_of_stray {piece : Text.Bytes} (stray : Text.decode? piece = none)
    (pieces : List Text.Bytes) : texts (piece :: pieces) = [] := by
  simp [texts, stray]

theorem texts_cons_encode (text : List Char) (pieces : List Text.Bytes) :
    texts (Text.encode text :: pieces) = text :: texts pieces := by
  simp [texts, Text.decode?_encode]

theorem opens_texts (pieces : List Text.Bytes) : ∃ rest, Opens pieces (texts pieces) rest ∧
    (pieces.all fun piece => (Text.decode? piece).isSome) = rest.isEmpty := by
  induction pieces with
  | nil => exact ⟨[], ⟨rfl, nofun⟩, rfl⟩
  | cons piece pieces ih =>
    cases decoded : Text.decode? piece with
    | none =>
      refine ⟨piece :: pieces, ⟨by simp [texts_cons_of_stray decoded], ?_⟩, by simp [decoded]⟩
      simp only [List.head?_cons, Option.mem_def, Option.some.injEq, forall_eq']
      rintro text rfl
      cases decoded.symm.trans (Text.decode?_encode text)
    | some text =>
      obtain rfl := Text.decode?_eq_some_iff.mp decoded
      obtain ⟨rest, ⟨split, stray⟩, all⟩ := ih
      refine ⟨rest, ⟨?_, stray⟩, by simp [decoded, all]⟩
      rw [texts_cons_encode, List.map_cons, List.cons_append, ← split]

/-- What texts add to a queue: the characters of each that are not white space, if there are any. -/
def entries (texts : List (List Char)) : List String :=
  (texts.filter fun text => text.any fun c => !Text.isBlank c).map fun text =>
    .ofList (text.filter fun c => !Text.isBlank c)

theorem commandsOf_eq_entries (pieces : List Text.Bytes) :
    commandsOf pieces = entries (texts pieces) := by
  have left (text : List Char) :
      decide (Text.compact text ≠ []) = text.any fun c => !Text.isBlank c := by
    rw [Bool.eq_iff_iff, decide_eq_true_iff]
    simp [Text.compact]
  simp only [commandsOf, entries, List.filter_map, List.map_map, Function.comp_def, left]
  rfl

theorem isSome_compact? (raw : String) : (compact? raw).isSome = Scheduler.accepts raw := by
  rw [Bool.eq_iff_iff]
  simp [compact?, Scheduler.accepts, Text.compact_eq_nil_iff]

/-- A source adds to the queue what is left of its lines up to the first that is not UTF-8, one
entry for each line with something left, and nothing else. It counts the entries, and tells whether
all lines were text. A line has something left exactly if it would be accepted as it is, and what is
left is always accepted. -/
theorem pump_adds_entries (bytes : Text.Bytes) (s : Scheduler) :
    (∃ pieces texts rest, (∀ others, Cut bytes others ↔ others = pieces) ∧
      Opens pieces texts rest ∧
      pump bytes s = ⟨(entries texts).length, rest.isEmpty,
        { s with queue := s.queue ++ entries texts }⟩) ∧
    ∀ raw, (compact? raw).isSome = (s.submit raw).1 ∧
      ((s.submit raw).1 = true ↔ Text.trim raw.toList ≠ []) ∧
      ∀ command ∈ compact? raw,
        s.submit command = (true, { s with queue := s.queue ++ [command] }) := by
  constructor
  · obtain ⟨rest, opens, all⟩ := opens_texts (lines bytes)
    refine ⟨lines bytes, texts (lines bytes), rest, fun others => ⟨Cut.eq_lines, ?_⟩, opens, ?_⟩
    · rintro rfl
      exact cut_lines bytes
    · rw [pump, submitLines_eq, commandsOf_eq_entries, all, Nat.zero_add]
      rfl
  · intro raw
    have accepted : (s.submit raw).1 = Scheduler.accepts raw := by
      unfold Scheduler.submit
      split <;> simp [*]
    refine ⟨(isSome_compact? raw).trans accepted.symm, ?_, fun command left => ?_⟩
    · rw [accepted, Ne, Text.trim_eq_nil_iff, Scheduler.accepts]
      simp
    · rw [Scheduler.submit, if_pos (accepts_of_compact? left)]

theorem stray_byte_ends_source :
    let bytes : Text.Bytes := " A = Turtle()\r\n\t\nfly\n".toUTF8.toList ++ [0xFF, lineFeed, 0x42]
    let s : Scheduler := .ofRules .standard
    (∃ pieces texts rest, Cut bytes pieces ∧ Opens pieces texts rest ∧ rest ≠ [] ∧
      entries texts = ["A=Turtle()", "fly"] ∧ (pump bytes s).scheduler.queue = entries texts) ∧
    "fly" ∈ compact? " f l\ty" ∧ s.submit "fly" = (true, { s with queue := ["fly"] }) := by
  intro bytes s
  obtain ⟨⟨pieces, texts, rest, only, opens, pumped⟩, left⟩ := pump_adds_entries bytes s
  have queue : (pump bytes s).scheduler.queue = ["A=Turtle()", "fly"] := by decide +kernel
  have stray : (pump bytes s).wasText = false := by decide +kernel
  rw [pumped] at queue stray
  have fly : "fly" ∈ compact? " f l\ty" := by decide
  refine ⟨⟨pieces, texts, rest, (only pieces).mpr rfl, opens, ?_, queue, ?_⟩, fly,
    (left " f l\ty").2.2 "fly" fly⟩
  · simpa using stray
  · rw [pumped]
    rfl

end Source
end Turtle
