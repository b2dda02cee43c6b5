import Turtle.Config.Json
import Turtle.Proofs.Json.Value
import Mathlib.Data.List.Nodup
import Mathlib.Data.List.Perm.Subperm

/-! A configuration in JSON text.
An object gives fields by name and an array gives the first ones by place. Each field is given by a
text that denotes a value for it; the reader takes such texts in either form, and no others. -/
namespace Turtle.Config

open Json

/-- The fields that are whole numbers, with the width of each. -/
def counts? : Field → Option (Width × (Nat → Assignment))
  | .poolCapacity => some (.size, .poolCapacity)
  | .moveSpeed => none
  | .spawnPosition => none
  | .targetRate => some (.word, .targetRate)
  | .maxFrameMillis => some (.long, .maxFrameMillis)
  | .maxTicksPerFrame => some (.word, .maxTicksPerFrame)
  | .reportMillis => some (.long, .reportMillis)

/-- A number that is in range, and what it is in single precision. -/
def IsSingle (body : List Char) (x : Single) : Prop :=
  ∃ n : Written, n.text = body ∧ n.single? = some x

/-- What a text gives to a field. -/
inductive Denotes : Field → List Char → Assignment → Prop where
  | count {field : Field} {width : Width} {make : Nat → Assignment}
    (kind : counts? field = some (width, make)) (n : Written) (plain : n.IsWhole)
    (fits : Numeral.value n.whole < width.limit) :
    Denotes field n.text (make (Numeral.value n.whole))
  | speed {body : List Char} {x : Single} (reads : IsSingle body x) :
    Denotes .moveSpeed body (.moveSpeed x)
  | position (blanks : Blanks) {a b c : Item} {x y z : Single} (first : IsSingle a.body x)
    (second : IsSingle b.body y) (third : IsSingle c.body z) :
    Denotes .spawnPosition (arrayText blanks [a, b, c]) (.spawnPosition ⟨x, y, z⟩)

section Fields

variable {field : Field} {body : List Char} {a : Assignment}

theorem field_of_counts {width : Width} {make : Nat → Assignment}
    (kind : counts? field = some (width, make)) :
    width.limit ≤ twoTo 64 ∧ (∀ n, (make n).field = field) ∧
      ∀ c, readField field c = (do let (n, c) ← readWholeNumber width c; .ok (make n, c)) := by
  have narrow : Width.word.limit ≤ twoTo 64 ∧ Width.long.limit ≤ twoTo 64 ∧
      Width.size.limit ≤ twoTo 64 := by decide +kernel
  cases field <;> cases kind <;> exact ⟨by simp [narrow], fun _ => rfl, fun _ => rfl⟩

theorem Denotes.field_eq (denotes : Denotes field body a) : a.field = field := by
  cases denotes with
  | count kind n plain fits => exact (field_of_counts kind).2.1 _
  | speed reads => rfl
  | position blanks first second third => rfl

theorem reads_make {α : Type} {read : Cursor → Result (α × Cursor)} {a? : Option α}
    (reads : Reads read body a?) (make : α → Assignment)
    (same : ∀ c, readField field c = (do let (a, c) ← read c; .ok (make a, c))) :
    Reads (readField field) body (a?.map make) := by
  refine ⟨reads.opens, fun blanks rest stop place => ?_⟩
  rw [same, Option.map_eq_bind]
  exact (reads.reads blanks stop place).bind fun a place => ⟨place, rfl⟩

theorem IsSingle.reads {x : Single} (single : IsSingle body x) : Reads readSingle body (some x) := by
  obtain ⟨n, rfl, value⟩ := single
  exact value ▸ n.readsSingle

theorem Denotes.reads (denotes : Denotes field body a) : Reads (readField field) body (some a) := by
  cases denotes with
  | count kind n plain fits =>
    obtain ⟨narrow, -, same⟩ := field_of_counts kind
    exact reads_make (plain.readsWhole narrow fits) _ same
  | speed reads => exact reads_make reads.reads .moveSpeed fun _ => rfl
  | position blanks first second third =>
    have triple : Reads readTriple (arrayText blanks _) (some _) :=
      ⟨⟨'[', _, rfl, by decide⟩, fun before rest _ place => readTriple_items before rest place blanks
        (.cons first.reads (.cons second.reads (.cons third.reads .nil)))⟩
    exact reads_make triple .spawnPosition fun _ => rfl

/-- Whatever value a field is given, the reader fails or takes exactly the value. -/
theorem reads_of_value (value : IsValue body) (field : Field) :
    ∃ a?, Reads (readField field) body a? := by
  cases kind : counts? field with
  | some pair =>
    obtain ⟨width, make⟩ := pair
    obtain ⟨n?, reads⟩ := value.readsWhole width
    exact ⟨_, reads_make reads make (field_of_counts kind).2.2⟩
  | none =>
    cases field with
    | moveSpeed =>
      obtain ⟨x?, reads⟩ := value.readsSingle
      exact ⟨_, reads_make reads .moveSpeed fun _ => rfl⟩
    | spawnPosition =>
      obtain ⟨v?, reads⟩ := value.readsTriple
      exact ⟨_, reads_make reads .spawnPosition fun _ => rfl⟩
    | _ => cases kind

theorem field_of_readField {c after : Cursor} (read : readField field c = .ok (a, after)) :
    a.field = field := by
  have inside {α : Type} {reading : Result (α × Cursor)} {make : α → Assignment}
      (found : (do let (x, c) ← reading; .ok (make x, c)) = (.ok (a, after) : Result _)) :
      ∃ x, a = make x := by
    cases reading with
    | error fault => cases found
    | ok pair =>
      cases found
      exact ⟨pair.1, rfl⟩
  cases field <;> obtain ⟨x, rfl⟩ := inside read <;> rfl

end Fields

/-- The field a member names, if its name can be decoded and is one of a field. -/
def fieldOf? (m : Member) : Option Field :=
  (Letter.decode? m.name).bind fun name => Field.ofName? (.ofList name)

/-- The inside of an object from a member on, and its end. -/
def membersText (first : Bool) (blanks : Blanks) (members : List Member) (rest : List Char) :
    List Char :=
  inside first blanks (members.map Member.item) ++ '}' :: rest

section Members

variable (blanks : Blanks) (rest : List Char) (place : Place) (first : Bool)

theorem nextName_end : nextName? first ⟨membersText first blanks [] rest, place⟩ = .ok none := by
  obtain ⟨after, skipped⟩ := skipBlank_cons blanks '}' rest (by decide) place
  simp [nextName?, membersText, inside, skipped]

/-- What stands after the name of a member. -/
def afterName (m : Member) (members : List Member) (rest : List Char) : List Char :=
  m.gap.chars ++ ':' :: (m.lead.chars ++ (m.body ++ membersText false m.after members rest))

theorem nextName_member (m : Member) (members : List Member) :
    ∃ reading, Yields reading ((Letter.decode? m.name).map String.ofList) (afterName m members rest) ∧
      nextName? first ⟨membersText first blanks (m :: members) rest, place⟩ = reading.map some := by
  have skip (place : Place) := skipBlank_cons m.before '"'
    (spelled m.name ++ afterName m members rest) (by decide) place
  have text : membersText first blanks (m :: members) rest
      = (if first then [] else blanks.chars ++ [','])
        ++ (m.before.chars ++ '"' :: (spelled m.name ++ afterName m members rest)) := by
    simp [membersText, afterName, inside, Member.item]
  have named (place : Place) := readText_yields m.name (afterName m members rest) (place.past '"')
  cases first with
  | true =>
    obtain ⟨after, skipped⟩ := skip place
    refine ⟨_, named after, ?_⟩
    simp [nextName?, text, skipped, Cursor.eat]
    cases readText _ <;> rfl
  | false =>
    obtain ⟨before, reached⟩ := skipBlank_cons blanks ','
      (m.before.chars ++ '"' :: (spelled m.name ++ afterName m members rest)) (by decide) place
    obtain ⟨after, skipped⟩ := skip (before.past ',')
    refine ⟨_, named after, ?_⟩
    simp [nextName?, text, reached, skipped, Cursor.eat]
    cases readText _ <;> rfl

theorem readColon_gap (m : Member) (tail : List Char) :
    ∃ after, readColon ⟨m.gap.chars ++ ':' :: tail, place⟩ = .ok ⟨tail, after⟩ := by
  obtain ⟨after, skipped⟩ := skipBlank_cons m.gap ':' tail (by decide) place
  exact ⟨after.past ':', by simp [readColon, skipped, Cursor.eat]⟩

/-- What is taken from a member after others: nothing, if it does not name a free field. -/
def takes? (given : List Assignment) (m : Member) (a? : Option Assignment) : Option Assignment :=
  (fieldOf? m).bind fun field => if field ∈ given.map Assignment.field then none else a?

theorem readMember_member (given : List Assignment) (m : Member) (members : List Member)
    {a? : Option Assignment}
    (reads : ∀ field, fieldOf? m = some field → Reads (readField field) m.body a?) :
    ∃ reading, Yields reading (takes? given m a?) (membersText false m.after members rest) ∧
      readMember given ⟨membersText given.isEmpty blanks (m :: members) rest, place⟩
        = reading.map some := by
  obtain ⟨reading, named, found⟩ := nextName_member blanks rest place given.isEmpty m members
  unfold takes? fieldOf?
  unfold fieldOf? at reads
  cases decoded : Letter.decode? m.name with
  | none =>
    rw [decoded] at named
    obtain ⟨fault, rfl⟩ := named
    refine ⟨.error (fault.under .unnamed), ⟨_, rfl⟩, ?_⟩
    simp [readMember, found, Except.map, within, bind, Except.bind]
  | some name =>
    rw [decoded] at named
    obtain ⟨place, rfl⟩ := named
    simp only [readMember, found, Except.map, within, bind, Except.bind]
    simp only [decoded, Option.bind_some] at reads
    cases known : Field.ofName? (.ofList name) with
    | none =>
      simp only [Option.bind_some, known]
      exact ⟨.error _, ⟨_, rfl⟩, rfl⟩
    | some field =>
      simp only [Option.bind_some, known]
      split_ifs with taken
      · exact ⟨.error _, ⟨_, rfl⟩, rfl⟩
      · obtain ⟨after, passed⟩ := readColon_gap place m
          (m.lead.chars ++ (m.body ++ membersText false m.after members rest))
        have stop : Stops (membersText false m.after members rest) :=
          stops_inside (.inr rfl) m.after (members.map Member.item) rest
        have value := ((reads field known).reads m.lead stop after).within
          (.member (String.ofList name))
        refine ⟨_, value, ?_⟩
        simp only [afterName, passed, within]

theorem readMember_end (given : List Assignment) :
    readMember given ⟨membersText given.isEmpty blanks [] rest, place⟩ = .ok none := by
  simp [readMember, nextName_end, within, bind, Except.bind]

end Members

/-- A member that gives a value to the field it names. -/
def Gives (m : Member) (a : Assignment) : Prop :=
  ∃ field, fieldOf? m = some field ∧ Denotes field m.body a

theorem readMembers_gives {members : List Member} {assignments : List Assignment}
    (gives : List.Forall₂ Gives members assignments) (given : List Assignment)
    (distinct : ((given ++ assignments).map Assignment.field).Nodup) {rounds : Nat}
    (enough : assignments.length < rounds) (blanks : Blanks) (rest : List Char) (place : Place) :
    readMembers rounds given ⟨membersText given.isEmpty blanks members rest, place⟩
      = .ok (given ++ assignments) := by
  induction gives generalizing given rounds blanks place with
  | nil =>
    obtain ⟨rounds, rfl⟩ := Nat.exists_eq_succ_of_ne_zero (Nat.ne_zero_of_lt enough)
    simp [readMembers, readMember_end, bind, Except.bind]
  | @cons m a members assignments first others ih =>
    obtain ⟨rounds, rfl⟩ := Nat.exists_eq_succ_of_ne_zero (Nat.ne_zero_of_lt enough)
    obtain ⟨field, named, denotes⟩ := first
    have free : field ∉ given.map Assignment.field := by
      intro inside
      rw [List.map_append, List.nodup_append] at distinct
      exact distinct.2.2 _ inside _ (by simp [denotes.field_eq]) rfl
    have reads : ∀ other, fieldOf? m = some other → Reads (readField other) m.body (some a) := by
      rw [named]
      rintro _ ⟨⟩
      exact denotes.reads
    obtain ⟨reading, taken, found⟩ := readMember_member blanks rest place given m members reads
    simp only [takes?, named, Option.bind_some, if_neg free] at taken
    obtain ⟨after, rfl⟩ := taken
    have goes := ih (given ++ [a]) (by simpa using distinct) (Nat.lt_of_succ_lt_succ enough) m.after
      after
    have started : (given ++ [a]).isEmpty = false := by simp
    rw [started] at goes
    simpa [readMembers, found, Except.map, bind, Except.bind] using goes

theorem length_le_all {fields : List Field} (distinct : fields.Nodup) :
    fields.length ≤ Field.all.length := by
  refine (List.subperm_of_subset distinct ?_).length_le
  intro field _
  cases field <;> decide

theorem field_of_reads {field : Field} {body : List Char} {a : Assignment}
    (reads : Reads (readField field) body (some a)) : a.field = field := by
  have stop : Json.Stops [] := nofun
  obtain ⟨place, read⟩ := reads.reads .none stop .start
  exact field_of_readField read

/-- Members with a name of no field, or two of one field, among themselves or with fields given before,
make the reader fail sooner or later. -/
theorem readMembers_fails {members : List Member} (values : ∀ m ∈ members, IsValue m.body)
    (given : List Assignment) (distinct : (given.map Assignment.field).Nodup)
    (bad : none ∈ members.map fieldOf? ∨
      ¬((given.map fun a => some a.field) ++ members.map fieldOf?).Nodup)
    (rounds : Nat) (enough : Field.all.length < rounds + given.length) (blanks : Blanks)
    (rest : List Char) (place : Place) :
    ∃ fault, readMembers rounds given ⟨membersText given.isEmpty blanks members rest, place⟩
      = .error fault := by
  induction members generalizing given rounds blanks place with
  | nil =>
    have mapped : (given.map fun a => some a.field) = (given.map Assignment.field).map some := by simp
    rw [List.map_nil, List.append_nil, mapped] at bad
    rcases bad with empty | repeated
    · cases empty
    · exact absurd (List.Nodup.map (Option.some_injective _) distinct) repeated
  | cons m members ih =>
    have few : (given.map Assignment.field).length ≤ Field.all.length := length_le_all distinct
    rw [List.length_map] at few
    obtain ⟨rounds, rfl⟩ : ∃ n, rounds = n + 1 := ⟨rounds - 1, by omega⟩
    have fails (a? : Option Assignment)
        (reads : ∀ field, fieldOf? m = some field → Reads (readField field) m.body a?)
        (refused : takes? given m a? = none) :
        ∃ fault, readMembers (rounds + 1) given
          ⟨membersText given.isEmpty blanks (m :: members) rest, place⟩ = .error fault := by
      obtain ⟨reading, taken, found⟩ := readMember_member blanks rest place given m members reads
      rw [refused] at taken
      obtain ⟨fault, rfl⟩ := taken
      exact ⟨fault, by simp [readMembers, found, Except.map, bind, Except.bind]⟩
    cases named : fieldOf? m with
    | none => exact fails none (by simp [named]) (by simp [takes?, named])
    | some field =>
      obtain ⟨a?, value⟩ := reads_of_value (values m List.mem_cons_self) field
      have reads : ∀ other, fieldOf? m = some other → Reads (readField other) m.body a? := by
        intro other same
        cases named.symm.trans same
        exact value
      by_cases free : field ∈ given.map Assignment.field
      · exact fails a? reads (by simp only [takes?, named, Option.bind_some, if_pos free])
      · cases a? with
        | none => exact fails none reads (by simp [takes?, named])
        | some a =>
          obtain ⟨reading, taken, found⟩ := readMember_member blanks rest place given m members reads
          simp only [takes?, named, Option.bind_some, if_neg free] at taken
          obtain ⟨after, rfl⟩ := taken
          have same := field_of_reads value
          obtain ⟨fault, goes⟩ := ih (fun m inside => values m (List.mem_cons_of_mem _ inside))
            (given ++ [a])
            (by
              rw [List.map_append, List.nodup_append]
              simp_all)
            (by simpa [named, same] using bad)
            rounds (by simp; omega) m.after after
          have started : (given ++ [a]).isEmpty = false := by simp
          rw [started] at goes
          exact ⟨fault, by simpa [readMembers, found, Except.map, bind, Except.bind] using goes⟩

section Elements

variable (blanks : Blanks) (rest : List Char) (place : Place)

theorem readElements_denote {items : List Item} {assignments : List Assignment}
    (denote : List.Forall₂ (fun item a => Denotes a.field item.body a) items assignments)
    {fields : List Field} (leading : assignments.map Assignment.field <+: fields) (index : Nat) :
    ∃ c, readElements index fields ⟨inside (index == 0) blanks items ++ ']' :: rest, place⟩
        = .ok (assignments, c) ∧ ∃ out, leaveArray c = .ok out := by
  induction denote generalizing fields index blanks place with
  | nil =>
    cases fields with
    | nil =>
      obtain ⟨after, left⟩ := leaveArray_end blanks rest place (index == 0)
      exact ⟨_, rfl, _, left⟩
    | cons field fields =>
      obtain ⟨after, ended⟩ := nextElement_end blanks rest place (index == 0)
      obtain ⟨out, left⟩ := leaveArray_end .none rest after false
      exact ⟨⟨']' :: rest, after⟩, by simp only [readElements, ended, bind, Except.bind], _, left⟩
  | @cons item a items assignments first others ih =>
    obtain ⟨tail, rfl⟩ := leading
    obtain ⟨here, found⟩ := nextElement_item blanks rest place (index == 0) item items first.reads.opens
    have stop := stops_inside (.inl rfl) item.after items rest
    obtain ⟨after, read⟩ := (first.reads.reads .none stop here).within (.element index)
    obtain ⟨c, goes, left⟩ := ih item.after after (List.prefix_append _ tail) (index + 1)
    refine ⟨c, ?_, left⟩
    simp only [Blanks.none, List.nil_append] at read
    have later : (index + 1 == 0) = false := rfl
    rw [later] at goes
    simp only [List.map_cons, List.cons_append, readElements, found, bind, Except.bind, read, goes]

/-- With more elements than fields the reader fails at one of them, or is left with a comma. -/
theorem readElements_excess {fields : List Field} {items : List Item}
    (values : ∀ item ∈ items, IsValue item.body) (excess : fields.length < items.length) (index : Nat)
    (begun : index ≠ 0 ∨ fields ≠ []) :
    (∃ fault, readElements index fields ⟨inside (index == 0) blanks items ++ ']' :: rest, place⟩
        = .error fault) ∨
      ∃ assignments c,
        readElements index fields ⟨inside (index == 0) blanks items ++ ']' :: rest, place⟩
          = .ok (assignments, c) ∧ ∃ fault, leaveArray c = .error fault := by
  induction fields generalizing items index blanks place with
  | nil =>
    obtain ⟨item, items, rfl⟩ := List.exists_cons_of_ne_nil (List.ne_nil_of_length_pos excess)
    have later : (index == 0) = false := by simpa using begun
    rw [later]
    exact .inr ⟨[], _, rfl, leaveArray_item blanks rest place item items⟩
  | cons field fields ih =>
    obtain ⟨item, items, rfl⟩ := List.exists_cons_of_ne_nil
      (List.ne_nil_of_length_pos (Nat.zero_lt_of_lt excess))
    obtain ⟨a?, value⟩ := reads_of_value (values item List.mem_cons_self) field
    obtain ⟨here, found⟩ := nextElement_item blanks rest place (index == 0) item items value.opens
    have stop := stops_inside (.inl rfl) item.after items rest
    have read := (value.reads .none stop here).within (.element index)
    simp only [Blanks.none, List.nil_append] at read
    cases a? with
    | none =>
      obtain ⟨fault, read⟩ := read
      exact .inl ⟨fault, by simp only [readElements, found, bind, Except.bind, read]⟩
    | some a =>
      obtain ⟨after, read⟩ := read
      have goes := ih item.after after (fun item inside => values item (List.mem_cons_of_mem _ inside))
        (Nat.lt_of_succ_lt_succ excess) (index + 1) (.inl (Nat.succ_ne_zero index))
      have later : (index + 1 == 0) = false := rfl
      rw [later] at goes
      rcases goes with ⟨fault, goes⟩ | ⟨assignments, c, goes, stuck⟩
      · exact .inl ⟨fault, by simp only [readElements, found, bind, Except.bind, read, goes]⟩
      · refine .inr ⟨a :: assignments, c, ?_, stuck⟩
        simp only [readElements, found, bind, Except.bind, read, goes]

end Elements

/-- What a configuration says of a field. -/
def saying (c : Config) : Field → Assignment
  | .poolCapacity => .poolCapacity c.poolCapacity
  | .moveSpeed => .moveSpeed c.moveSpeed
  | .spawnPosition => .spawnPosition c.spawnPosition
  | .targetRate => .targetRate c.targetRate
  | .maxFrameMillis => .maxFrameMillis c.maxFrameMillis
  | .maxTicksPerFrame => .maxTicksPerFrame c.maxTicksPerFrame
  | .reportMillis => .reportMillis c.reportMillis

theorem saying_assign (c : Config) (a : Assignment) (field : Field) :
    (c.assign a).saying field = if a.field = field then a else c.saying field := by
  cases a <;> cases field <;> rfl

/-- A configuration with the given values in their fields, and what another has in the others. -/
structure Sets (c base : Config) (assignments : List Assignment) : Prop where
  given : ∀ a ∈ assignments, c.saying a.field = a
  left : ∀ field, field ∉ assignments.map Assignment.field → c.saying field = base.saying field

theorem sets_assignAll {assignments : List Assignment} (base : Config)
    (distinct : (assignments.map Assignment.field).Nodup) :
    Sets (base.assignAll assignments) base assignments := by
  induction assignments generalizing base with
  | nil => exact ⟨nofun, fun _ _ => rfl⟩
  | cons a assignments ih =>
    rw [List.map_cons, List.nodup_cons] at distinct
    obtain ⟨given, left⟩ := ih (base.assign a) distinct.2
    have still := left a.field distinct.1
    rw [saying_assign, if_pos rfl] at still
    constructor
    · intro b inside
      rcases List.mem_cons.mp inside with rfl | later
      · exact still
      · exact given b later
    · intro field outside
      rw [List.map_cons, List.mem_cons, not_or] at outside
      have kept := left field outside.2
      rw [saying_assign, if_neg (Ne.symm outside.1)] at kept
      exact kept

theorem Sets.unique {c c' base : Config} {assignments others : List Assignment}
    (first : Sets c base assignments) (second : Sets c' base others)
    (same : ∀ a, a ∈ assignments ↔ a ∈ others) : c = c' := by
  have agree (field : Field) : c.saying field = c'.saying field := by
    by_cases inside : field ∈ assignments.map Assignment.field
    · obtain ⟨a, mem, rfl⟩ := List.mem_map.mp inside
      rw [first.given a mem, second.given a ((same a).mp mem)]
    · have outside : field ∉ others.map Assignment.field := by simpa [← same] using inside
      rw [first.left field inside, second.left field outside]
  have capacity := Assignment.poolCapacity.inj (agree .poolCapacity)
  have speed := Assignment.moveSpeed.inj (agree .moveSpeed)
  have position := Assignment.spawnPosition.inj (agree .spawnPosition)
  have rate := Assignment.targetRate.inj (agree .targetRate)
  have frame := Assignment.maxFrameMillis.inj (agree .maxFrameMillis)
  have ticks := Assignment.maxTicksPerFrame.inj (agree .maxTicksPerFrame)
  have report := Assignment.reportMillis.inj (agree .reportMillis)
  cases c
  cases c'
  simp_all

end Turtle.Config
