import Turtle.Proofs.Fields
import Turtle.Proofs.Json.Range

/-! The two forms of a configuration in JSON text, from the first character on.
In either form the fields that are given are set and the others keep the standard values. What follows
the closing bracket is never reached. -/
namespace Turtle.Config

open Json

open Format (double)

/-- A text whose first value is an object. -/
def objectFile (lead blanks : Blanks) (members : List Member) (rest : List Char) : List Char :=
  lead.chars ++ (objectText blanks members ++ rest)

def arrayFile (lead blanks : Blanks) (items : List Item) (rest : List Char) : List Char :=
  lead.chars ++ (arrayText blanks items ++ rest)

section Object

variable {members : List Member} (lead blanks : Blanks) (rest : List Char)

theorem assignments_of_object (members : List Member) : ∃ place,
    assignmentsOfJson (objectFile lead blanks members rest)
      = readMembers (Field.all.length + 1) [] ⟨membersText true blanks members rest, place⟩ := by
  obtain ⟨after, skipped⟩ := skipBlank_cons lead '{'
    (membersText true blanks members rest) (by decide) .start
  refine ⟨after.past '{', ?_⟩
  have text : objectText blanks members ++ rest = '{' :: membersText true blanks members rest := by
    simp [objectText, membersText]
  simp [objectFile, assignmentsOfJson, Cursor.ofText, text, skipped, Cursor.eat]

theorem ofJson_object {assignments : List Assignment} (gives : List.Forall₂ Gives members assignments)
    (distinct : (assignments.map Assignment.field).Nodup) :
    ofJson (objectFile lead blanks members rest) = .ok (standard.assignAll assignments) := by
  obtain ⟨place, begun⟩ := assignments_of_object lead blanks rest members
  have few := length_le_all distinct
  rw [List.length_map] at few
  have goes := readMembers_gives gives [] (by simpa using distinct)
    (Nat.lt_succ_of_le few) blanks rest place
  simp only [List.isEmpty_nil, List.nil_append] at goes
  simp only [ofJson, begun, goes, bind, Except.bind]

theorem ofJson_object_fails (values : ∀ m ∈ members, IsValue m.body)
    (bad : none ∈ members.map fieldOf? ∨ ¬(members.map fieldOf?).Nodup) :
    ∃ fault, ofJson (objectFile lead blanks members rest) = .error fault := by
  obtain ⟨place, begun⟩ := assignments_of_object lead blanks rest members
  obtain ⟨fault, goes⟩ := readMembers_fails values [] (by simp) (by simpa using bad)
    (Field.all.length + 1) (by simp) blanks rest place
  simp only [List.isEmpty_nil] at goes
  exact ⟨fault, by simp only [ofJson, begun, goes, bind, Except.bind]⟩

end Object

section Array

variable {items : List Item} (lead blanks : Blanks) (rest : List Char)

theorem assignments_of_array (items : List Item) : ∃ place,
    assignmentsOfJson (arrayFile lead blanks items rest) = (do
      let (assignments, c) ← readElements 0 Field.all ⟨inside true blanks items ++ ']' :: rest, place⟩
      let _ ← leaveArray c
      .ok assignments) := by
  obtain ⟨after, skipped⟩ := skipBlank_cons lead '['
    (inside true blanks items ++ ']' :: rest) (by decide) .start
  refine ⟨after.past '[', ?_⟩
  have text : arrayText blanks items ++ rest = '[' :: (inside true blanks items ++ ']' :: rest) := by
    simp [arrayText]
  simp [arrayFile, assignmentsOfJson, Cursor.ofText, text, skipped, Cursor.eat]

theorem ofJson_array {assignments : List Assignment}
    (denote : List.Forall₂ (fun item a => Denotes a.field item.body a) items assignments)
    (leading : assignments.map Assignment.field <+: Field.all) :
    ofJson (arrayFile lead blanks items rest) = .ok (standard.assignAll assignments) := by
  obtain ⟨place, begun⟩ := assignments_of_array lead blanks rest items
  obtain ⟨c, goes, out, left⟩ := readElements_denote blanks rest place denote leading 0
  simp only [beq_self_eq_true] at goes
  simp only [ofJson, begun, goes, left, bind, Except.bind]

theorem ofJson_array_fails (values : ∀ item ∈ items, IsValue item.body)
    (excess : Field.all.length < items.length) :
    ∃ fault, ofJson (arrayFile lead blanks items rest) = .error fault := by
  obtain ⟨place, begun⟩ := assignments_of_array lead blanks rest items
  have goes := readElements_excess blanks rest place values excess 0 (.inr nofun)
  simp only [beq_self_eq_true] at goes
  rcases goes with ⟨fault, stuck⟩ | ⟨assignments, c, read, fault, stuck⟩
  · exact ⟨fault, by simp only [ofJson, begun, stuck, bind, Except.bind]⟩
  · exact ⟨fault, by simp only [ofJson, begun, read, stuck, bind, Except.bind]⟩

end Array

theorem Field.bare_name (field : Field) :
    ∀ c ∈ field.name.toList, c ≠ '"' ∧ c ≠ '\\' ∧ 0x20 ≤ c.toNat := by
  have all : field.name.toList.all fun c => c ≠ '"' ∧ c ≠ '\\' ∧ 0x20 ≤ c.toNat := by
    cases field <;> decide
  simpa using all

/-- A name that is spelled without escapes. -/
def Field.letters (field : Field) : List Letter := field.name.toList.pmap .plain field.bare_name

theorem Field.spelled_letters (field : Field) :
    spelled field.letters = field.name.toList ++ ['"'] := by
  cases field <;> decide

theorem Field.fieldOf?_letters {field : Field} {m : Member} (named : m.name = field.letters) :
    fieldOf? m = some field := by
  rw [fieldOf?, named]
  cases field <;> decide

/-- A configuration is read from an object with distinct fields or from an array of the first ones, to
the same effect. Numbers are read unless they are too large. More elements than there are fields,
names of no field and fields given twice are refused. -/
theorem ofJson_either_form :
    (∀ n, Moderate n → ∃ code bounded,
      IsSingle n.text (.signed n.negative code bounded) ∧ (Tame n → Nearly n.numeral code)) ∧
    (∀ members assignments, List.Forall₂ Gives members assignments →
      (assignments.map Assignment.field).Nodup → ∃ c, Sets c standard assignments ∧
        (∀ lead blanks rest, ofJson (objectFile lead blanks members rest) = .ok c) ∧
        ∀ items values, List.Forall₂ (fun item a => Denotes a.field item.body a) items values →
          values.map Assignment.field <+: Field.all → values.Perm assignments →
          ∀ lead blanks rest, ofJson (arrayFile lead blanks items rest) = .ok c) ∧
    (∀ items : List Item, (∀ item ∈ items, IsValue item.body) → Field.all.length < items.length →
      ∀ lead blanks rest, ∃ fault, ofJson (arrayFile lead blanks items rest) = .error fault) ∧
    ∀ members : List Member, (∀ m ∈ members, IsValue m.body) →
      none ∈ members.map fieldOf? ∨ ¬(members.map fieldOf?).Nodup →
      ∀ lead blanks rest, ∃ fault, ofJson (objectFile lead blanks members rest) = .error fault := by
  refine ⟨fun n moderate => ?_, fun members assignments gives distinct => ?_,
    fun items values excess lead blanks rest => ofJson_array_fails lead blanks rest values excess,
    fun members values bad lead blanks rest => ofJson_object_fails lead blanks rest values bad⟩
  · obtain ⟨code, bounded, found, nearly, -⟩ := moderate.single?
    exact ⟨code, bounded, ⟨n, rfl, found⟩, nearly⟩
  · have sets := sets_assignAll standard distinct
    refine ⟨_, sets, fun lead blanks rest => ofJson_object lead blanks rest gives distinct, ?_⟩
    intro items values denote leading same lead blanks rest
    have distinct' : (values.map Assignment.field).Nodup := (same.map _).nodup_iff.mpr distinct
    rw [ofJson_array lead blanks rest denote leading]
    exact congrArg _ ((sets_assignAll standard distinct').unique sets fun a => same.mem_iff)

/-- The number seven. -/
def seven : Written := ⟨false, ['7'], [], none, by decide, by decide, by decide, rfl⟩

theorem seven_moderate : Moderate seven := by
  constructor
  · have wide : (10 : ℚ) ≤ twoTo 1024 := by
      have less : 10 ≤ twoTo 1024 := by decide +kernel
      exact_mod_cast less
    have value : seven.numeral.magnitude = 7 := by
      have significand : seven.numeral.significand = 7 := by decide
      have exponent : seven.numeral.exponent = 0 := by decide
      simp [Numeral.magnitude, significand, exponent]
    rw [value]
    linarith
  · simp [seven]

theorem ofJson_seven_in_either_form :
    (∃ code bounded, IsSingle seven.text (.signed false code bounded)) ∧
    (∃ c, Sets c standard [.poolCapacity 7] ∧
      ofJson "\x7b\"pool_capacity\":7\x7d".toList = .ok c ∧ ofJson "[7]".toList = .ok c) ∧
    (∃ fault, ofJson "[7,7,7,7,7,7,7,7]".toList = .error fault) ∧
    ∃ fault, ofJson "\x7b\"\":7\x7d".toList = .error fault := by
  obtain ⟨numbers, forms, long, unknown⟩ := ofJson_either_form
  let item : Item := ⟨.none, seven.text, .none⟩
  let named (letters : List Letter) : Member := ⟨.none, letters, .none, .none, seven.text, .none⟩
  have whole : Denotes .poolCapacity seven.text (.poolCapacity 7) :=
    .count rfl seven ⟨rfl, rfl, rfl⟩ (by decide +kernel)
  refine ⟨?_, ?_, ?_, ?_⟩
  · obtain ⟨code, bounded, single, -⟩ := numbers seven seven_moderate
    exact ⟨code, bounded, single⟩
  · obtain ⟨c, sets, object, array⟩ := forms [named (Field.letters .poolCapacity)] [.poolCapacity 7]
      (.cons ⟨.poolCapacity, Field.fieldOf?_letters rfl, whole⟩ .nil) (by decide)
    exact ⟨c, sets, object .none .none [],
      array [item] [.poolCapacity 7] (.cons whole .nil) ⟨_, rfl⟩ (.refl _) .none .none []⟩
  · have values : ∀ other ∈ List.replicate 8 item, IsValue other.body := by
      intro other inside
      rw [List.eq_of_mem_replicate inside]
      exact .number seven
    exact long (.replicate 8 item) values (by decide) .none .none []
  · have values : ∀ m ∈ [named []], IsValue m.body := by
      intro m inside
      rw [List.mem_singleton.mp inside]
      exact .number seven
    exact unknown [named []] values (.inl (by decide)) .none .none []

theorem fails_of_toOption {text : List Char} (stuck : (ofJson text).toOption = none) :
    ∃ fault, ofJson text = .error fault := by
  cases reading : ofJson text with
  | error fault => exact ⟨fault, rfl⟩
  | ok c =>
    rw [reading] at stuck
    cases stuck

/-- A number in the range of the doubles, whose digits and power of ten are both rounded up. -/
def almostGreatest : Written := ⟨false, "17976931348623157081".toList, [],
  some ⟨'e', none, "289".toList, .inl rfl, by decide, by decide⟩, by decide, by decide, by decide,
  rfl⟩

def minusZero : Written := ⟨true, ['0'], [], none, by decide, by decide, fun _ => rfl, rfl⟩

theorem ofJson_refuses_values_in_range :
    (almostGreatest.text = "17976931348623157081e289".toList ∧
      almostGreatest.numeral.magnitude * double.unit ≤ double.quanta (double.infinity - 1) ∧
      ∃ fault, ofJson "\x7b\"move_speed\": 17976931348623157081e289\x7d".toList = .error fault) ∧
    minusZero.text = "-0".toList ∧ minusZero.numeral.magnitude = 0 ∧
      ∃ fault, ofJson "\x7b\"pool_capacity\": -0\x7d".toList = .error fault := by
  refine ⟨⟨rfl, ?_, fails_of_toOption (by decide +kernel)⟩, rfl, ?_,
    fails_of_toOption (by decide +kernel)⟩
  · have value : almostGreatest.numeral.magnitude = (17976931348623157081 * tenTo 289 : Nat) := by
      have significand : almostGreatest.numeral.significand = 17976931348623157081 := by
        decide +kernel
      have exponent : almostGreatest.numeral.exponent = (289 : Nat) := by decide +kernel
      rw [Numeral.magnitude, significand, exponent, zpow_natCast, Nat.cast_mul, cast_tenTo]
    have below : 17976931348623157081 * tenTo 289 * double.unit
        ≤ double.quanta (double.infinity - 1) := by decide +kernel
    rw [value]
    exact_mod_cast below
  · have significand : minusZero.numeral.significand = 0 := by decide +kernel
    simp [Numeral.magnitude, significand]

end Turtle.Config
