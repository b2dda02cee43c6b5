import Turtle.Config.Load
import Turtle.Proofs.Number.Unsigned

/-! The layers of a configuration.
Three fields can be set by the environment; a field it does not set, or sets to a text that cannot
be read, comes from the file that the environment names, or from the standard configuration if it
names none. What a file says is left to the reader of JSON text. The order in which the stages of loading
can fail is that of the constructors of `Stops`. -/
namespace Turtle.Config

section Variables

variable {environment : Environment} {name : String} {value : Text.Bytes}

/-- A variable that is not set, or is set to UTF-8. -/
def Legible (environment : Environment) (name : String) : Prop :=
  ∀ value, environment name = some value → ∃ text, Text.decode? value = some text

def Illegible (environment : Environment) (name : String) (value : Text.Bytes) : Prop :=
  environment name = some value ∧ Text.decode? value = none

def textOf? (environment : Environment) (name : String) : Option (List Char) :=
  (environment name).bind Text.decode?

theorem legible_or_illegible (environment : Environment) (name : String) :
    Legible environment name ∨ ∃ value, Illegible environment name value := by
  unfold Legible Illegible
  cases set : environment name with
  | none => exact .inl fun value impossible => by cases impossible
  | some value =>
    cases text : Text.decode? value with
    | none => exact .inr ⟨value, rfl, text⟩
    | some chars => exact .inl fun other same => by cases same; exact ⟨chars, text⟩

theorem readVariable_of_legible (legible : Legible environment name) :
    readVariable environment name = .ok (textOf? environment name) := by
  unfold readVariable textOf?
  cases set : environment name with
  | none => rfl
  | some value =>
    obtain ⟨text, decoded⟩ := legible value set
    simp only [decoded, Option.bind_some]

theorem readVariable_of_illegible (illegible : Illegible environment name value) :
    readVariable environment name = .error (.notUnicode name value) := by
  simp only [readVariable, illegible.1, illegible.2]

end Variables

/-- The value of a field: what its variable gives, if the trimmed text can be read, or else the
value underneath. -/
def chosen {α : Type} (environment : Environment) (name : String) (read? : List Char → Option α)
    (base : α) : α :=
  ((textOf? environment name).bind fun text => read? (Text.trim text)).getD base

def layered (environment : Environment) (base : Config) : Config where
  poolCapacity :=
    chosen environment "TURTLE_POOL_CAPACITY" (wholeOfText? (twoTo 64)) base.poolCapacity
  moveSpeed := chosen environment "TURTLE_MOVE_SPEED" Number.ofText? base.moveSpeed
  spawnPosition := base.spawnPosition
  targetRate := chosen environment "TURTLE_TARGET_TPS" (wholeOfText? (twoTo 32)) base.targetRate
  maxFrameMillis := base.maxFrameMillis
  maxTicksPerFrame := base.maxTicksPerFrame
  reportMillis := base.reportMillis

/-- The variables that set fields, in the order in which they are looked up. -/
def overriding : List String := ["TURTLE_POOL_CAPACITY", "TURTLE_MOVE_SPEED", "TURTLE_TARGET_TPS"]

def Names (environment : Environment) (path : List Char) : Prop :=
  ∃ value, environment "TURTLE_CONFIG" = some value ∧ Text.decode? value = some path

/-- The configuration underneath the environment: the standard one, if no file is named, or what a
file in UTF-8 says. -/
inductive Base (environment : Environment) (files : Files) : Config → Prop where
  | standard : environment "TURTLE_CONFIG" = none → Base environment files standard
  | file (path text : List Char) (content : Text.Bytes) (base : Config) :
      Names environment path → files (.ofList path) = .ok (.file content) →
      Text.decode? content = some text → ofJson text = .ok base → Base environment files base

structure Valid (c : Config) : Prop where
  poolCapacity : 1 ≤ c.poolCapacity
  moveSpeed : c.moveSpeed.isFinite = true ∧ 0 < c.moveSpeed
  spawnPosition : c.spawnPosition.isFinite = true
  targetRate : 1 ≤ c.targetRate

/-- The first field that no session can run with. -/
inductive FirstInvalid (c : Config) : Invalid → Prop where
  | poolCapacity : c.poolCapacity = 0 → FirstInvalid c .poolCapacity
  | moveSpeed :
      1 ≤ c.poolCapacity → ¬(c.moveSpeed.isFinite = true ∧ 0 < c.moveSpeed) →
      FirstInvalid c (.moveSpeed c.moveSpeed)
  | spawnPosition :
      1 ≤ c.poolCapacity → c.moveSpeed.isFinite = true ∧ 0 < c.moveSpeed →
      c.spawnPosition.isFinite = false → FirstInvalid c .spawnPosition
  | targetRate :
      1 ≤ c.poolCapacity → c.moveSpeed.isFinite = true ∧ 0 < c.moveSpeed →
      c.spawnPosition.isFinite = true → c.targetRate = 0 → FirstInvalid c .targetRate

/-- The first stage of loading that fails, with its fault. -/
inductive Stops (environment : Environment) (files : Files) : LoadFault → Prop where
  | path (value : Text.Bytes) :
      Illegible environment "TURTLE_CONFIG" value →
      Stops environment files (.notUnicode "TURTLE_CONFIG" value)
  | unreadable (path : List Char) (fault : ReadFault) :
      Names environment path → files.readText (.ofList path) = .error fault →
      Stops environment files (.unreadable (.ofList path) fault)
  | malformed (path text : List Char) (content : Text.Bytes) (fault : Json.Fault) :
      Names environment path → files (.ofList path) = .ok (.file content) →
      Text.decode? content = some text → ofJson text = .error fault →
      Stops environment files (.malformed (.ofList path) fault)
  | overriding (base : Config) (before after : List String) (name : String) (value : Text.Bytes) :
      Base environment files base → overriding = before ++ name :: after →
      (∀ earlier ∈ before, Legible environment earlier) → Illegible environment name value →
      Stops environment files (.notUnicode name value)
  | invalid (base : Config) (fault : Invalid) :
      Base environment files base → (∀ name ∈ overriding, Legible environment name) →
      FirstInvalid (layered environment base) fault → Stops environment files (.invalid fault)

/-- Digits whose value is below the limit, with or without a plus sign, set a field of whole
numbers. -/
theorem chosen_of_digits {environment : Environment} {name : String} {limit : Nat}
    {text digits : List Char} (base : Nat) (set : textOf? environment name = some text)
    (trimmed : Text.trim text = digits ∨ Text.trim text = '+' :: digits) (written : digits ≠ [])
    (all : ∀ c ∈ digits, c.isDigit = true) (below : Numeral.value digits < limit) :
    chosen environment name (wholeOfText? limit) base = Numeral.value digits := by
  have read : wholeOfText? limit (Text.trim text) = some (Numeral.value digits) :=
    wholeOfText?_eq_some_iff.mpr ⟨digits, trimmed, written, all, rfl, below⟩
  simp only [chosen, set, Option.bind_some, read, Option.getD_some]

section Validity

variable {c : Config} {fault : Invalid}

theorem speed_refused_iff (c : Config) :
    (¬c.moveSpeed.isFinite ∨ c.moveSpeed ≤ 0) ↔
      ¬(c.moveSpeed.isFinite = true ∧ 0 < c.moveSpeed) := by
  rw [← not_iff_not, not_or, not_not, not_not]
  exact and_congr_right fun finite => (Number.pos_iff_not_le_zero finite).symm

theorem invalid?_of_valid (valid : c.Valid) : c.invalid? = none := by
  have proper : ¬(¬c.moveSpeed.isFinite ∨ c.moveSpeed ≤ 0) := by
    rw [speed_refused_iff, not_not]
    exact valid.moveSpeed
  simp only [invalid?, if_neg (Nat.ne_of_gt valid.poolCapacity), if_neg proper,
    valid.spawnPosition, not_true, if_false, if_neg (Nat.ne_of_gt valid.targetRate)]

theorem FirstInvalid.invalid?_eq (first : c.FirstInvalid fault) : c.invalid? = some fault := by
  cases first with
  | poolCapacity empty => simp only [invalid?, if_pos empty]
  | moveSpeed filled refused =>
    rw [← speed_refused_iff] at refused
    simp only [invalid?, if_neg (Nat.ne_of_gt filled), if_pos refused]
  | spawnPosition filled proper far =>
    have moves := mt (speed_refused_iff c).mp (not_not.mpr proper)
    simp only [invalid?, if_neg (Nat.ne_of_gt filled), if_neg moves, far, Bool.false_eq_true,
      not_false_eq_true, if_true]
  | targetRate filled proper near stopped =>
    have moves := mt (speed_refused_iff c).mp (not_not.mpr proper)
    simp only [invalid?, if_neg (Nat.ne_of_gt filled), if_neg moves, near, not_true, if_false,
      if_pos stopped]

theorem valid_or_firstInvalid (c : Config) : c.Valid ∨ ∃ fault, c.FirstInvalid fault := by
  rcases Nat.eq_zero_or_pos c.poolCapacity with empty | filled
  · exact .inr ⟨_, .poolCapacity empty⟩
  · by_cases proper : c.moveSpeed.isFinite = true ∧ 0 < c.moveSpeed
    · cases near : c.spawnPosition.isFinite with
      | false => exact .inr ⟨_, .spawnPosition filled proper near⟩
      | true =>
        rcases Nat.eq_zero_or_pos c.targetRate with stopped | running
        · exact .inr ⟨_, .targetRate filled proper near stopped⟩
        · exact .inl ⟨filled, proper, near, running⟩
    · exact .inr ⟨_, .moveSpeed filled proper⟩

end Validity

section Overrides

variable {environment : Environment} {o : Override} {list : List Override}

def settled (environment : Environment) (c : Config) (o : Override) : Config :=
  (((textOf? environment o.name).bind fun text => o.read? (Text.trim text)).map c.assign).getD c

theorem applyOverride_of_legible (legible : Legible environment o.name) (c : Config) :
    applyOverride environment c o = .ok (settled environment c o) := by
  simp only [applyOverride, readVariable_of_legible legible, settled, bind, Except.bind]
  cases textOf? environment o.name with
  | none => rfl
  | some text =>
    dsimp only [Option.bind_some]
    cases o.read? (Text.trim text) with
    | none => rfl
    | some assignment => rfl

theorem applyFrom_of_legible (legible : ∀ o ∈ list, Legible environment o.name) (c : Config) :
    applyFrom environment list c = (list.foldl (settled environment) c, none) := by
  induction list generalizing c with
  | nil => rfl
  | cons o list ih =>
    obtain ⟨first, later⟩ := List.forall_mem_cons.mp legible
    simp only [applyFrom, applyOverride_of_legible first, ih later, List.foldl_cons]

theorem applyFrom_of_illegible {value : Text.Bytes} (before after : List Override)
    (legible : ∀ o ∈ before, Legible environment o.name)
    (illegible : Illegible environment o.name value) (c : Config) :
    (applyFrom environment (before ++ o :: after) c).2 = some (.notUnicode o.name value) := by
  induction before generalizing c with
  | nil =>
    simp only [List.nil_append, applyFrom, applyOverride, readVariable_of_illegible illegible, bind,
      Except.bind]
  | cons first before ih =>
    obtain ⟨here, later⟩ := List.forall_mem_cons.mp legible
    simp only [List.cons_append, applyFrom, applyOverride_of_legible here]
    exact ih later _

theorem settled_map {α : Type} (name : String) (read? : List Char → Option α)
    (set : α → Assignment) (c : Config) :
    settled environment c ⟨name, fun text => (read? text).map set⟩ =
      match (textOf? environment name).bind fun text => read? (Text.trim text) with
      | some value => c.assign (set value)
      | none => c := by
  unfold settled
  cases textOf? environment name with
  | none => rfl
  | some text =>
    dsimp only [Option.bind_some]
    cases read? (Text.trim text) with
    | none => rfl
    | some value => rfl

/-- The fields are set one after the other, which comes to each being chosen by itself. -/
theorem foldl_settled (environment : Environment) (c : Config) :
    overrides.foldl (settled environment) c = layered environment c := by
  simp only [overrides, List.foldl_cons, List.foldl_nil, settled_map, layered, chosen]
  generalize (textOf? environment "TURTLE_POOL_CAPACITY").bind _ = capacity?
  generalize (textOf? environment "TURTLE_MOVE_SPEED").bind _ = speed?
  generalize (textOf? environment "TURTLE_TARGET_TPS").bind _ = rate?
  cases capacity? <;> cases speed? <;> cases rate? <;> rfl

end Overrides

/-- What loading makes of the layer underneath. -/
def overlay (environment : Environment) (base : Config) : Except LoadFault Config :=
  match base.applyOverrides environment with
  | (_, some fault) => .error fault
  | (c, none) => do
    c.validate
    .ok c

section Loading

variable {environment : Environment} {files : Files} {base : Config}

theorem Names.textOf?_eq {path : List Char} (names : Names environment path) :
    textOf? environment fileVariable = some path := by
  obtain ⟨value, set, decoded⟩ := names
  simp only [textOf?, fileVariable, set, Option.bind_some, decoded]

theorem Names.legible {path : List Char} (names : Names environment path) :
    Legible environment fileVariable := by
  obtain ⟨value, set, decoded⟩ := names
  intro other same
  cases set.symm.trans same
  exact ⟨path, decoded⟩

theorem readText_eq_ok {path : String} {text : List Char}
    (read : files.readText path = .ok text) :
    ∃ content, files path = .ok (.file content) ∧ Text.decode? content = some text := by
  unfold Files.readText at read
  split at read
  · cases read
  · cases read
  · rename_i content found
    split at read
    · rename_i decoded
      cases read
      exact ⟨content, found, decoded⟩
    · cases read

theorem load_of_names {path : List Char} (names : Names environment path) :
    load environment files = (ofFile files (.ofList path)).bind (overlay environment) := by
  simp only [load, readVariable_of_legible names.legible, names.textOf?_eq, bind, Except.bind]
  rfl

theorem ofFile_of_text {path text : List Char} {content : Text.Bytes}
    (found : files (.ofList path) = .ok (.file content))
    (decoded : Text.decode? content = some text) :
    ofFile files (.ofList path) = ofText (.ofList path) text := by
  simp only [ofFile, Files.readText, found, decoded]

/-- Once the layer underneath is there, only the overriding variables and the values can fail. -/
theorem load_of_base (there : Base environment files base) :
    load environment files = overlay environment base := by
  cases there with
  | standard unset =>
    simp only [load, readVariable, fileVariable, unset, bind, Except.bind]
    rfl
  | file path text content base names found decoded said =>
    rw [load_of_names names, ofFile_of_text found decoded]
    simp only [ofText, said, Except.bind]

theorem map_name_overrides : overrides.map Override.name = overriding := rfl

theorem applyOverrides_of_legible (legible : ∀ name ∈ overriding, Legible environment name)
    (c : Config) : c.applyOverrides environment = (layered environment c, none) := by
  rw [← map_name_overrides, List.forall_mem_map] at legible
  rw [applyOverrides, applyFrom_of_legible legible, foldl_settled]

theorem load_of_legible (there : Base environment files base)
    (legible : ∀ name ∈ overriding, Legible environment name) :
    load environment files
      = (layered environment base).validate.bind fun _ => .ok (layered environment base) := by
  rw [load_of_base there, overlay, applyOverrides_of_legible legible]
  rfl

theorem load_of_valid (there : Base environment files base)
    (legible : ∀ name ∈ overriding, Legible environment name)
    (valid : (layered environment base).Valid) :
    load environment files = .ok (layered environment base) := by
  rw [load_of_legible there legible]
  simp only [validate, invalid?_of_valid valid, Except.bind]

theorem Stops.load_eq {fault : LoadFault} (stops : Stops environment files fault) :
    load environment files = .error fault := by
  cases stops with
  | path value illegible =>
    simp only [load, fileVariable, readVariable_of_illegible illegible, bind, Except.bind]
  | unreadable path fault names unread =>
    simp only [load_of_names names, ofFile, unread, Except.bind]
  | malformed path text content fault names found decoded said =>
    rw [load_of_names names, ofFile_of_text found decoded]
    simp only [ofText, said, Except.bind]
  | overriding base before after name value there split legible illegible =>
    rw [← map_name_overrides, List.map_eq_append_iff] at split
    obtain ⟨first, rest, list, rfl, split⟩ := split
    obtain ⟨o, last, rfl, rfl, rfl⟩ := List.map_eq_cons_iff.mp split
    rw [List.forall_mem_map] at legible
    have stopped := applyFrom_of_illegible first last legible illegible base
    rw [load_of_base there, overlay, applyOverrides, list]
    generalize applyFrom environment (first ++ o :: last) base = outcome at stopped
    obtain ⟨c, fault?⟩ := outcome
    cases stopped
    rfl
  | invalid base fault there legible first =>
    rw [load_of_legible there legible]
    simp only [validate, first.invalid?_eq, Except.bind]

theorem base_or_stops (environment : Environment) (files : Files) :
    (∃ base, Base environment files base) ∨ ∃ fault, Stops environment files fault := by
  rcases legible_or_illegible environment "TURTLE_CONFIG" with legible | ⟨value, illegible⟩
  · cases set : environment "TURTLE_CONFIG" with
    | none => exact .inl ⟨_, .standard set⟩
    | some value =>
      obtain ⟨path, decoded⟩ := legible value set
      have names : Names environment path := ⟨value, set, decoded⟩
      cases read : files.readText (.ofList path) with
      | error fault => exact .inr ⟨_, .unreadable path fault names read⟩
      | ok text =>
        obtain ⟨content, found, said⟩ := readText_eq_ok read
        cases json : ofJson text with
        | error fault => exact .inr ⟨_, .malformed path text content fault names found said json⟩
        | ok base => exact .inl ⟨base, .file path text content base names found said json⟩
  · exact .inr ⟨_, .path value illegible⟩

theorem legible_or_first_illegible (environment : Environment) (names : List String) :
    (∀ name ∈ names, Legible environment name) ∨
    ∃ before name after value, names = before ++ name :: after ∧
      (∀ earlier ∈ before, Legible environment earlier) ∧ Illegible environment name value := by
  induction names with
  | nil => exact .inl (List.forall_mem_nil _)
  | cons name names ih =>
    rcases legible_or_illegible environment name with legible | ⟨value, illegible⟩
    · rcases ih with all | ⟨before, other, after, value, rfl, earlier, illegible⟩
      · exact .inl (List.forall_mem_cons.mpr ⟨legible, all⟩)
      · exact .inr ⟨name :: before, other, after, value, rfl,
          List.forall_mem_cons.mpr ⟨legible, earlier⟩, illegible⟩
    · exact .inr ⟨[], name, names, value, rfl, List.forall_mem_nil _, illegible⟩

/-- Loading has all it needs, or one of its stages is the first to fail. -/
theorem ready_or_stops (environment : Environment) (files : Files) :
    (∃ base, Base environment files base ∧ (∀ name ∈ overriding, Legible environment name) ∧
      (layered environment base).Valid) ∨
    ∃ fault, Stops environment files fault := by
  rcases base_or_stops environment files with ⟨base, there⟩ | stops
  · rcases legible_or_first_illegible environment overriding with
      legible | ⟨before, name, after, value, split, earlier, illegible⟩
    · rcases valid_or_firstInvalid (layered environment base) with valid | ⟨fault, first⟩
      · exact .inl ⟨base, there, legible, valid⟩
      · exact .inr ⟨_, .invalid base fault there legible first⟩
    · exact .inr ⟨_, .overriding base before after name value there split earlier illegible⟩
  · exact .inr stops

/-- Loading succeeds exactly if there is a layer underneath, every overriding variable can be read
and the layered configuration is valid, and then gives that configuration. Otherwise it fails with
the fault of the first stage that does. -/
theorem load_eq_iff (environment : Environment) (files : Files) :
    (∀ c, load environment files = .ok c ↔
      ∃ base, Base environment files base ∧ (∀ name ∈ overriding, Legible environment name) ∧
        c = layered environment base ∧ c.Valid) ∧
    (∀ fault, load environment files = .error fault ↔ Stops environment files fault) := by
  refine ⟨fun c => ⟨fun loaded => ?_, ?_⟩, fun fault => ⟨fun failed => ?_, Stops.load_eq⟩⟩
  · rcases ready_or_stops environment files with ⟨base, there, legible, valid⟩ | ⟨fault, stops⟩
    · cases (load_of_valid there legible valid).symm.trans loaded
      exact ⟨base, there, legible, rfl, valid⟩
    · cases stops.load_eq.symm.trans loaded
  · rintro ⟨base, there, legible, rfl, valid⟩
    exact load_of_valid there legible valid
  · rcases ready_or_stops environment files with ⟨base, there, legible, valid⟩ | ⟨first, stops⟩
    · cases (load_of_valid there legible valid).symm.trans failed
    · cases stops.load_eq.symm.trans failed
      exact stops

end Loading

end Turtle.Config
