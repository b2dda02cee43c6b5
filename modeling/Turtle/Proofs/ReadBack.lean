import Mathlib.Data.List.TakeWhile
import Turtle.Proofs.Reading
import Turtle.Proofs.Reports

/-! Reading back the position of an actor that has just been spawned.
A spawn takes all that stands before the equals sign for the name, and a query takes what stands
before the first point. So a query built from the name asks for the actor just spawned only if the
name has no point in it; with a point it asks for whoever has the part before the point as a
name. -/
namespace Turtle

def beforePoint (name : String) : String := .ofList (name.toList.takeWhile (· ≠ '.'))

theorem beforePoint_of_not_mem {name : String} (plain : '.' ∉ name.toList) :
    beforePoint name = name := by
  rw [beforePoint, List.takeWhile_eq_self_iff.mpr, String.ofList_toList]
  intro c member
  rw [decide_eq_true_iff]
  rintro rfl
  exact plain member

theorem beforePoint_ne {name : String} (dotted : '.' ∈ name.toList) : beforePoint name ≠ name := by
  intro same
  rw [← same, beforePoint, String.toList_ofList] at dotted
  simpa using List.mem_takeWhile_imp dotted

namespace Command

variable {name into : String}

theorem name_of_spawns (spawns : ofLine (name ++ "=Turtle()") = .spawn name) :
    name ≠ "" ∧ '=' ∉ name.toList := by
  have reading := reading_ofLine (name ++ "=Turtle()")
  rw [spawns] at reading
  cases reading with
  | spawn _ spawns =>
    obtain ⟨rest, _, named, single, _, _⟩ := spawns
    exact ⟨fun empty => named (by rw [empty]; rfl), single⟩

/-- The first point of a name with the ending of a query is in the name, or begins the ending. -/
theorem append_position (name : List Char) :
    ∃ rest, name ++ ".position()".toList = name.takeWhile (· ≠ '.') ++ '.' :: rest ∧
      ".position()".toList <:+ '.' :: rest := by
  induction name with
  | nil => exact ⟨"position()".toList, rfl, List.suffix_refl _⟩
  | cons c name ih =>
    by_cases point : c = '.'
    · subst point
      exact ⟨name ++ ".position()".toList, by simp, List.suffix_append ('.' :: name) _⟩
    · obtain ⟨rest, same, ends⟩ := ih
      refine ⟨rest, ?_, ends⟩
      rw [List.takeWhile_cons_of_pos (by simpa using point), List.cons_append, same]
      rfl

theorem toList_query (into name : String) :
    (into ++ "=" ++ name ++ ".position()").toList
      = into.toList ++ '=' :: (name.toList ++ ".position()".toList) := by
  simp

theorem ofLine_query (proper : into ≠ "") (single : '=' ∉ into.toList)
    (clean : '=' ∉ name.toList) (named : beforePoint name ≠ "") :
    ofLine (into ++ "=" ++ name ++ ".position()") = .query into (beforePoint name) := by
  apply Reading.ofLine_eq
  obtain ⟨rest, same, ends⟩ := append_position name.toList
  have whole : '=' ∉ name.toList.takeWhile (· ≠ '.') ++ '.' :: rest := by
    rw [← same, List.mem_append, not_or]
    exact ⟨clean, by decide⟩
  simp only [List.mem_append, List.mem_cons, not_or] at whole
  refine .query into (beforePoint name) ⟨rest, ?_, ?_, ?_, single, ?_, whole.2.2, ?_, ends⟩
  · rw [toList_query, same, beforePoint, String.toList_ofList]
  · simpa using proper
  · simpa using named
  · rw [beforePoint, String.toList_ofList]
    exact whole.1
  · rw [beforePoint, String.toList_ofList]
    intro inside
    simpa using List.mem_takeWhile_imp inside

theorem ofLine_ne_query (single : '=' ∉ into.toList) (unnamed : beforePoint name = "")
    (other actor : String) :
    ofLine (into ++ "=" ++ name ++ ".position()") ≠ .query other actor := by
  intro reads
  have reading := reading_ofLine (into ++ "=" ++ name ++ ".position()")
  rw [reads] at reading
  cases reading with
  | query _ _ queries =>
    obtain ⟨more, split, _, proper, clean, _, _, early, _⟩ := queries
    obtain ⟨rest, same, _⟩ := append_position name.toList
    have nothing : name.toList.takeWhile (· ≠ '.') = [] := by simpa [beforePoint] using unnamed
    rw [toList_query, same, nothing] at split
    obtain ⟨_, sides⟩ := append_cons_inj single clean split
    cases chars : actor.toList with
    | nil => exact proper chars
    | cons c actor =>
      rw [chars] at sides early
      obtain ⟨rfl, _⟩ := List.cons.inj sides
      exact early List.mem_cons_self

variable {c : Command} {block : List Event}

theorem Report.spawn_of_mem {slot : Slot} {point : Vec} (report : c.Report block)
    (told : .spawned name slot point ∈ block) : c = .spawn name := by
  cases report with
  | spawned other place position =>
    rcases List.mem_cons.mp told with same | told
    · cases same
      rfl
    · simp at told
  | answered into actor position => simp at told
  | moved actor distance stops goal => simp at told
  | failed failure _ => simp at told

theorem Report.query_of_mem {point : Vec} (report : c.Report block)
    (told : .readBack into point ∈ block) : ∃ actor, c = .query into actor := by
  cases report with
  | spawned other place position => simp at told
  | answered other actor position =>
    cases List.mem_singleton.mp told
    exact ⟨actor, rfl⟩
  | moved actor distance stops goal => simp at told
  | failed failure _ => simp at told

end Command

namespace Stage

variable {s : Stage} {dt : Single} {c : Command} {name into : String} {slot : Slot} {point : Vec}

theorem spawn_of_spawned (bound : s.Bound)
    (told : .spawned name slot point ∈ (s.perform dt c).events) : c = .spawn name := by
  rcases perform_reports bound dt c with ⟨_, report⟩ | ⟨move, distance, stop, _, _, same⟩
  · exact report.spawn_of_mem told
  · rw [same] at told
    simp at told

theorem query_of_readBack (bound : s.Bound)
    (told : .readBack into point ∈ (s.perform dt c).events) : ∃ actor, c = .query into actor := by
  rcases perform_reports bound dt c with ⟨_, report⟩ | ⟨move, distance, stop, _, _, same⟩
  · exact report.query_of_mem told
  · rw [same] at told
    simp at told

/-- A spawn that is told of has filled the first free slot. -/
theorem spawn_eq_enroll (packed : s.pool.Packed)
    (told : .spawned name slot point ∈ (s.spawn name).events) :
    s.spawn name = s.enroll name ∧ s.pool.activeCount < s.pool.capacity ∧
      slot = s.pool.activeCount ∧ point = s.rules.spawnPoint := by
  rcases s.pool.room_or_full with room | full
  · rw [spawn_of_room packed room] at told ⊢
    rcases List.mem_cons.mp told with same | told
    · cases same
      exact ⟨rfl, room, rfl, rfl⟩
    · simp at told
  · rw [spawn_of_full full] at told
    simp [fail] at told

end Stage

namespace History

variable {h : History} {line : String} {dt : Single}

/-- An idle run carries out the first tick of a line as soon as it is accepted. -/
theorem tick_submit (idle : h.scheduler.isIdle = true) (accepted : Scheduler.accepts line = true)
    (dt : Single) :
    let outcome := h.scheduler.stage.perform dt (.ofLine line)
    (h.submit line).scheduler.emits dt = outcome.events ∧
      ((h.submit line).tick dt).scheduler = { h.scheduler with queue := [] }.conclude outcome := by
  rw [Scheduler.isIdle_iff] at idle
  obtain ⟨free, empty⟩ := idle
  rw [h.submit_eq]
  simp only [accepted, if_true, empty, List.nil_append]
  have next := Scheduler.tick_of_line (s := { h.scheduler with queue := [line] }) free rfl dt
  exact ⟨next.2, next.1⟩

theorem accepts_of_mem (sign : '=' ∈ line.toList) : Scheduler.accepts line = true :=
  Scheduler.accepts_of_mem sign (by decide)

variable {permitted : Single → Prop} {rules : Rules} {name into : String} {slot : Slot}
  {point : Vec}

/-- What holds after a spawn that is told of: it had a proper name and a free slot, and the run is
idle again. -/
theorem Reached.tick_of_spawned (reached : Reached permitted rules h)
    (idle : h.scheduler.isIdle = true)
    (spawned : .spawned name slot point ∈ (h.submit (name ++ "=Turtle()")).scheduler.emits dt) :
    let s := h.scheduler.stage
    let after := (h.submit (name ++ "=Turtle()")).tick dt
    (name ≠ "" ∧ '=' ∉ name.toList) ∧ s.pool.activeCount < s.pool.capacity ∧
      slot = s.pool.activeCount ∧ point = s.rules.spawnPoint ∧
      after.scheduler.stage = (s.enroll name).stage ∧ after.scheduler.isIdle = true := by
  intro s after
  have accepted : Scheduler.accepts (name ++ "=Turtle()") = true := accepts_of_mem (by simp)
  obtain ⟨told, next⟩ := tick_submit idle accepted dt
  have coherent := reached.coherent
  rw [told] at spawned
  have reads := Stage.spawn_of_spawned (Stage.Coherent.boundInUse coherent) spawned
  rw [reads] at spawned next
  obtain ⟨enrolls, room, place, spot⟩ :=
    Stage.spawn_eq_enroll (Stage.Coherent.packed coherent) spawned
  rw [Stage.perform, enrolls] at next
  refine ⟨Command.name_of_spawns reads, room, place, spot, ?_, ?_⟩
  · exact congrArg Scheduler.stage next
  · exact congrArg Scheduler.isIdle next

/-- An actor that has just been spawned in an idle run is read back at its own position by a query
with its name, if there is no point in the name. Otherwise the query is about the part of the name
before the first point, and if there is no such part nothing is read back. -/
theorem reads_back_spawned (rules : Rules) (list : List Act) (dt later : Single)
    (idle : ((ofRules rules).acts list).scheduler.isIdle = true)
    (spawned : .spawned name slot point ∈
      (((ofRules rules).acts list).submit (name ++ "=Turtle()")).scheduler.emits dt)
    (proper : into ≠ "") (single : '=' ∉ into.toList) :
    let after := (((ofRules rules).acts list).submit (name ++ "=Turtle()")).tick dt
    let told :=
      (after.submit (into ++ "=" ++ name ++ ".position()")).scheduler.emits later
    ('.' ∉ name.toList → ∃ actor, after.scheduler.stage.pool.get? slot = some actor ∧
      actor.name = name ∧ actor.position = point ∧ told = [.readBack into actor.position]) ∧
    ('.' ∈ name.toList → beforePoint name ≠ name ∧
      (beforePoint name ≠ "" →
        told = (after.scheduler.stage.query into (beforePoint name)).events) ∧
      (beforePoint name = "" → ∀ other position, .readBack other position ∉ told)) := by
  intro after told
  have reached := reached_acts rules list
  obtain ⟨⟨named, clean⟩, room, place, spot, enrolled, rests⟩ :=
    reached.tick_of_spawned idle spawned
  have accepted : Scheduler.accepts (into ++ "=" ++ name ++ ".position()") = true :=
    accepts_of_mem (by simp)
  have tells : told = (after.scheduler.stage.perform later
      (.ofLine (into ++ "=" ++ name ++ ".position()"))).events :=
    (tick_submit rests accepted later).1
  constructor
  · intro plain
    have whole := beforePoint_of_not_mem plain
    rw [Command.ofLine_query proper single clean (by rw [whole]; exact named), whole] at tells
    refine ⟨⟨name, ⟨point, .identity⟩, true, none⟩, ?_, rfl, rfl, ?_⟩
    · rw [enrolled, place, spot]
      exact Stage.get?_enroll room name
    · rw [tells, Stage.perform, enrolled, Stage.query_of_get? (Stage.find?_enroll _ name)
        (Stage.get?_enroll room name), spot]
  · intro dotted
    refine ⟨beforePoint_ne dotted, ?_, ?_⟩
    · intro some
      rw [tells, Command.ofLine_query proper single clean some, Stage.perform]
    · intro none other position read
      rw [tells] at read
      have bound : after.scheduler.stage.Bound :=
        Stage.Coherent.boundInUse ((reached.submit _).tick dt trivial).coherent
      obtain ⟨actor, reads⟩ := Stage.query_of_readBack bound read
      exact Command.ofLine_ne_query single none _ _ reads

/-- A name that is spawned again, while the first actor of that name stands elsewhere. -/
theorem respawned_name_reads_origin :
    let h := (ofRules .standard).acts [.submit "A=Turtle()", .submit "A.fd(2)", .run 1 9]
    let after := (h.submit ("A" ++ "=Turtle()")).tick 1
    h.scheduler.isIdle = true ∧
      .spawned "A" 1 .zero ∈ (h.submit ("A" ++ "=Turtle()")).scheduler.emits 1 ∧
      "v" ≠ "" ∧ '=' ∉ "v".toList ∧ '.' ∉ "A".toList ∧
      ∃ actor, after.scheduler.stage.pool.get? 1 = some actor ∧ actor.position = .zero ∧
        (after.submit ("v" ++ "=" ++ "A" ++ ".position()")).scheduler.emits 1
          = [.readBack "v" actor.position] := by
  intro h after
  have idle : h.scheduler.isIdle = true := by decide +kernel
  have spawned : .spawned "A" 1 .zero ∈ (h.submit ("A" ++ "=Turtle()")).scheduler.emits 1 := by
    decide +kernel
  have proper : "v" ≠ "" := by decide
  have single : '=' ∉ "v".toList := by decide
  have plain : '.' ∉ "A".toList := by decide
  obtain ⟨actor, found, _, place, told⟩ :=
    (reads_back_spawned .standard _ 1 1 idle spawned proper single).1 plain
  exact ⟨idle, spawned, proper, single, plain, actor, found, place, told⟩

/-- A name with a point in it is spawned, and its query reads the position of another actor, the one
named by the part before the point. -/
theorem dotted_name_reads_other :
    let h := (ofRules .standard).acts [.submit "A=Turtle()", .submit "A.fd(2)", .run 1 9]
    let after := (h.submit "A.b=Turtle()").tick 1
    h.scheduler.isIdle = true ∧ h.scheduler.stage.pool.activeCount < 5 ∧
      (h.submit "A.b=Turtle()").scheduler.emits 1
        = [.spawned "A.b" 1 .zero, .idling "A.b" 1] ∧
      (after.scheduler.stage.pool.get? 1).map Actor.position = some .zero ∧
      (after.submit "v=A.b.position()").scheduler.emits 1 = [.readBack "v" ⟨0, 0, 2⟩] ∧
      (⟨0, 0, 2⟩ : Vec) ≠ .zero := by
  decide +kernel

end History
end Turtle
