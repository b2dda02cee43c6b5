import Turtle.Program
import Turtle.Proofs.Layers
import Turtle.Proofs.Lines
import Turtle.Proofs.Paths
import Turtle.Proofs.Utf8

/-! How a program begins.
It fails if its configuration or its source is not to be had, and crashes over a name or a first
argument that is not text and over a pool that no memory can hold. In both cases nothing is printed.
The configuration is read first, then the argument; the source is opened last. -/
namespace Turtle

namespace Host

def Given (h : Host) (text : String) : Prop :=
  h.arguments.values.head? = some (Text.encode text.toList)

instance (h : Host) (text : String) : Decidable (h.Given text) :=
  inferInstanceAs (Decidable (_ = _))

/-- A path that the first argument names. A dash names none. -/
def Names (h : Host) (path : String) : Prop := h.Given path ∧ path ≠ "-"

/-- There is no first argument, or it is a dash. -/
def Unnamed (h : Host) : Prop := h.arguments.values = [] ∨ h.Given "-"

inductive Feeds (h : Host) : Text.Bytes → Prop where
  | input : h.Unnamed → Feeds h h.input
  | file (path : String) (content : Text.Bytes) :
      h.Names path → h.files path = .ok (.file content) → Feeds h content
  | directory (path : String) : h.Names path → h.files path = .ok .directory → Feeds h []

/-- The source is named by a path that leads nowhere. -/
def Unopened (h : Host) : Prop := ∃ path fault, h.Names path ∧ h.files path = .error fault

/-- The program's name is text, and so is the first argument, if there is one. -/
def Legible (h : Host) : Prop :=
  ∀ argument ∈ h.arguments.name :: h.arguments.values.take 1, ∃ text, argument = Text.encode text

instance (h : Host) : Decidable h.Legible :=
  decidable_of_iff (∀ argument ∈ h.arguments.name :: h.arguments.values.take 1,
    (Text.decode? argument).isSome) (by simp only [Legible, Text.isSome_decode?_iff])

/-- What a program needs: its configuration, legible arguments, memory for its pool, and its
source. -/
structure Serves (h : Host) (config : Config) (bytes : Text.Bytes) : Prop where
  loaded : Config.load h.environment h.files = .ok config
  legible : h.Legible
  fits : Pool.Fits config.poolCapacity
  feeds : h.Feeds bytes

/-- The configuration is not to be had, or nothing but the source is not. -/
def Fails (h : Host) : Prop :=
  (∃ fault, Config.load h.environment h.files = .error fault) ∨
    ∃ config, Config.load h.environment h.files = .ok config ∧ h.Legible ∧
      Pool.Fits config.poolCapacity ∧ h.Unopened

/-- There is a configuration, but no legible arguments or no memory that can hold the pool. -/
def Crashes (h : Host) : Prop :=
  ∃ config, Config.load h.environment h.files = .ok config ∧
    ¬ (h.Legible ∧ Pool.Fits config.poolCapacity)

variable {h : Host} {config : Config} {bytes : Text.Bytes} {path : String}

theorem textOf_encode (text : List Char) : Program.textOf (Text.encode text) = .ok text := by
  simp only [Program.textOf, Text.decode?_encode]

theorem textOf_eq_error {argument : Text.Bytes}
    (stray : ¬ ∃ text, argument = Text.encode text) :
    Program.textOf argument = .error (.notText argument) := by
  rw [← Text.isSome_decode?_iff, Option.not_isSome_iff_eq_none] at stray
  simp only [Program.textOf, stray]

theorem Given.exists_rest (given : h.Given path) :
    ∃ rest, h.arguments.values = Text.encode path.toList :: rest := List.head?_eq_some_iff.mp given

theorem Legible.exists_textOf_name (legible : h.Legible) :
    ∃ text, Program.textOf h.arguments.name = .ok text := by
  obtain ⟨text, name⟩ := legible _ List.mem_cons_self
  exact ⟨text, name ▸ textOf_encode text⟩

theorem Unnamed.origin_eq (unnamed : h.Unnamed) (legible : h.Legible) :
    Program.origin h.arguments = .ok .input := by
  obtain ⟨_, name⟩ := legible.exists_textOf_name
  rcases unnamed with none | dash
  · simp [Program.origin, name, none, bind, Except.bind, pure, Except.pure]
  · obtain ⟨rest, arguments⟩ := dash.exists_rest
    simp [Program.origin, name, arguments, textOf_encode, bind, Except.bind, pure, Except.pure]

theorem Names.origin_eq (names : h.Names path) (legible : h.Legible) :
    Program.origin h.arguments = .ok (.path path) := by
  obtain ⟨_, name⟩ := legible.exists_textOf_name
  obtain ⟨rest, arguments⟩ := names.1.exists_rest
  have other : path.toList ≠ ['-'] := fun same => names.2 (String.toList_injective same)
  simp [Program.origin, name, arguments, textOf_encode, other, bind, Except.bind, pure, Except.pure]

theorem Legible.unnamed_or_names (legible : h.Legible) : h.Unnamed ∨ ∃ path, h.Names path := by
  cases arguments : h.arguments.values with
  | nil => exact .inl (.inl arguments)
  | cons first rest =>
    obtain ⟨text, rfl⟩ := legible first (by simp [arguments])
    have given : h.Given (.ofList text) := by simp [Given, arguments]
    by_cases dash : String.ofList text = "-"
    · exact .inl (.inr (dash ▸ given))
    · exact .inr ⟨_, given, dash⟩

theorem Legible.exists_origin_eq (legible : h.Legible) :
    ∃ origin, Program.origin h.arguments = .ok origin := by
  rcases legible.unnamed_or_names with unnamed | ⟨path, names⟩
  · exact ⟨_, unnamed.origin_eq legible⟩
  · exact ⟨_, names.origin_eq legible⟩

theorem exists_origin_eq_error (stray : ¬ h.Legible) :
    ∃ argument, Program.origin h.arguments = .error (.notText argument) := by
  by_cases name : ∃ text, h.arguments.name = Text.encode text
  · obtain ⟨text, name⟩ := name
    cases arguments : h.arguments.values with
    | nil =>
      refine absurd ?_ stray
      simpa [Legible, arguments] using ⟨text, name⟩
    | cons first rest =>
      have unread : ¬ ∃ text, first = Text.encode text := by
        intro read
        refine stray ?_
        simpa [Legible, arguments] using And.intro ⟨text, name⟩ read
      refine ⟨first, ?_⟩
      simp [Program.origin, name, arguments, textOf_encode, textOf_eq_error unread, bind,
        Except.bind]
  · refine ⟨h.arguments.name, ?_⟩
    simp only [Program.origin, textOf_eq_error name, bind, Except.bind]

theorem Feeds.exists_origin (feeds : h.Feeds bytes) (legible : h.Legible) :
    ∃ origin, Program.origin h.arguments = .ok origin ∧ Program.source h origin = .ok bytes := by
  cases feeds with
  | input unnamed => exact ⟨_, unnamed.origin_eq legible, rfl⟩
  | file path content names found =>
    exact ⟨_, names.origin_eq legible, by simp [Program.source, found]⟩
  | directory path names found =>
    exact ⟨_, names.origin_eq legible, by simp [Program.source, found]⟩

theorem Unopened.exists_origin (unopened : h.Unopened) (legible : h.Legible) :
    ∃ origin path fault, Program.origin h.arguments = .ok origin ∧
      Program.source h origin = .error (.unopened path fault) := by
  obtain ⟨path, fault, names, missing⟩ := unopened
  exact ⟨_, path, fault, names.origin_eq legible, by simp [Program.source, missing]⟩

theorem Legible.exists_feeds (legible : h.Legible) (opened : ¬ h.Unopened) :
    ∃ bytes, h.Feeds bytes := by
  rcases legible.unnamed_or_names with unnamed | ⟨path, names⟩
  · exact ⟨_, .input unnamed⟩
  · cases found : h.files path with
    | error fault => exact absurd ⟨path, fault, names, found⟩ opened
    | ok entry =>
      cases entry with
      | file content => exact ⟨content, .file path content names found⟩
      | directory => exact ⟨[], .directory path names found⟩

theorem fails_or_crashes_or_serves (h : Host) :
    h.Fails ∨ h.Crashes ∨ ∃ config bytes, h.Serves config bytes := by
  cases loaded : Config.load h.environment h.files with
  | error fault => exact .inl (.inl ⟨fault, loaded⟩)
  | ok config =>
    by_cases able : h.Legible ∧ Pool.Fits config.poolCapacity
    · obtain ⟨legible, fits⟩ := able
      by_cases unopened : h.Unopened
      · exact .inl (.inr ⟨config, loaded, legible, fits, unopened⟩)
      · obtain ⟨bytes, feeds⟩ := legible.exists_feeds unopened
        exact .inr (.inr ⟨config, bytes, loaded, legible, fits, feeds⟩)
    · exact .inr (.inl ⟨config, loaded, able⟩)

/-- Every capacity that a 64-bit number holds but no memory does, written as the variable for it, ends
the program in a crash, whatever its source. -/
theorem crashes_of_capacity {base : Config} {text digits : List Char}
    (there : Config.Base h.environment h.files base)
    (legible : ∀ name ∈ Config.overriding, Config.Legible h.environment name)
    (valid : (Config.layered h.environment base).Valid)
    (set : Config.textOf? h.environment "TURTLE_POOL_CAPACITY" = some text)
    (trimmed : Text.trim text = digits ∨ Text.trim text = '+' :: digits) (written : digits ≠ [])
    (all : ∀ c ∈ digits, c.isDigit = true) (below : Numeral.value digits < twoTo 64)
    (large : ¬ Pool.Fits (Numeral.value digits)) : h.Crashes := by
  refine ⟨_, Config.load_of_valid there legible valid, fun able => large ?_⟩
  rw [← Config.chosen_of_digits base.poolCapacity set trimmed written all below]
  exact able.2

/-- What a tree lists at the names of the first argument is the source, and if nothing is listed there
it is not opened. -/
theorem feeds_of_listed {t : Tree} {way : List String} (sound : t.Sound) (leads : way ≠ [])
    (named : ∀ name ∈ way, Tree.IsName name) (files : h.files = t.resolve)
    (names : h.Names (Tree.path way)) :
    (∀ content, t.entry? way = some (.file content) → h.Feeds content) ∧
      (t.entry? way = none → h.Unopened) := by
  obtain ⟨found, blocked, missing⟩ := Tree.resolve_path_iff sound leads named
  rw [← files] at found blocked missing
  constructor
  · intro content listed
    exact .file _ content names ((found _).mpr listed)
  · intro unlisted
    by_cases inside : t.Blocked way
    · exact ⟨_, _, names, blocked.mpr ⟨unlisted, inside⟩⟩
    · exact ⟨_, _, names, missing.mpr ⟨unlisted, inside⟩⟩

end Host

namespace Program

variable {h : Host} {config : Config} {bytes : Text.Bytes}

def opening (config : Config) (bytes : Text.Bytes) : Session :=
  .ofScheduler ((Scheduler.ofRules config.rules).enqueue (Source.commands bytes)) []

theorem begin_of_serves (serves : h.Serves config bytes) :
    begin h = .ok ((Pacer.ofPace config.pace).dt, opening config bytes) := by
  obtain ⟨origin, named, brings⟩ := serves.feeds.exists_origin serves.legible
  have fits : Pool.Fits config.rules.capacity := serves.fits
  simp only [begin, serves.loaded, named, scheduler, if_pos fits, brings, Except.mapError, bind,
    Except.bind, Source.pump_eq, opening]
  rfl

theorem begin_of_fails (fails : h.Fails) : ∃ halt, begin h = .error halt ∧ halt.code = 1 := by
  rcases fails with ⟨fault, failed⟩ | ⟨config, loaded, legible, fits, unopened⟩
  · exact ⟨.misconfigured fault, by simp [begin, failed, Except.mapError, bind, Except.bind], rfl⟩
  · obtain ⟨origin, path, fault, named, missing⟩ := unopened.exists_origin legible
    have fits : Pool.Fits config.rules.capacity := fits
    refine ⟨.unopened path fault, ?_, rfl⟩
    simp only [begin, loaded, named, scheduler, if_pos fits, missing, Except.mapError, bind,
      Except.bind]

theorem begin_of_crashes (crashes : h.Crashes) :
    ∃ halt, begin h = .error halt ∧ halt.code = 101 := by
  obtain ⟨config, loaded, unable⟩ := crashes
  by_cases legible : h.Legible
  · have large : ¬ Pool.Fits config.rules.capacity := fun fits => unable ⟨legible, fits⟩
    obtain ⟨origin, named⟩ := legible.exists_origin_eq
    refine ⟨.poolTooLarge config.rules.capacity, ?_, rfl⟩
    simp only [begin, loaded, named, scheduler, if_neg large, Except.mapError, bind, Except.bind]
  · obtain ⟨argument, stray⟩ := Host.exists_origin_eq_error legible
    refine ⟨.notText argument, ?_, rfl⟩
    simp only [begin, loaded, stray, Except.mapError, bind, Except.bind]

theorem run_of_serves (serves : h.Serves config bytes) (limit : Nat) :
    run h limit
      = ⟨0, output ((opening config bytes).settle (Pacer.ofPace config.pace).dt limit)⟩ := by
  simp only [run, begin_of_serves serves]

theorem run_of_fails (fails : h.Fails) (limit : Nat) : run h limit = ⟨1, ""⟩ := by
  obtain ⟨halt, halted, code⟩ := begin_of_fails fails
  simp only [run, halted, code]

theorem run_of_crashes (crashes : h.Crashes) (limit : Nat) : run h limit = ⟨101, ""⟩ := by
  obtain ⟨halt, halted, code⟩ := begin_of_crashes crashes
  simp only [run, halted, code]

theorem run_eq_failure_iff (h : Host) (limit : Nat) : run h limit = ⟨1, ""⟩ ↔ h.Fails := by
  refine ⟨fun ran => ?_, fun fails => run_of_fails fails limit⟩
  rcases h.fails_or_crashes_or_serves with fails | crashes | ⟨config, bytes, serves⟩
  · exact fails
  · cases ran.symm.trans (run_of_crashes crashes limit)
  · cases ran.symm.trans (run_of_serves serves limit)

theorem run_eq_crash_iff (h : Host) (limit : Nat) : run h limit = ⟨101, ""⟩ ↔ h.Crashes := by
  refine ⟨fun ran => ?_, fun crashes => run_of_crashes crashes limit⟩
  rcases h.fails_or_crashes_or_serves with fails | crashes | ⟨config, bytes, serves⟩
  · cases ran.symm.trans (run_of_fails fails limit)
  · exact crashes
  · cases ran.symm.trans (run_of_serves serves limit)

theorem run_code_eq_zero_iff (h : Host) (limit : Nat) :
    (run h limit).code = 0 ↔ ∃ config bytes, h.Serves config bytes := by
  constructor
  · intro succeeded
    rcases h.fails_or_crashes_or_serves with fails | crashes | serves
    · simp [run_of_fails fails] at succeeded
    · simp [run_of_crashes crashes] at succeeded
    · exact serves
  · rintro ⟨config, bytes, serves⟩
    rw [run_of_serves serves]

end Program
end Turtle
