import Turtle.Proofs.Grammar

/-! The grammar of command lines said by the shape of the text, without the functions that read it.
Every line is read as one command and no other: a spawn or a query by its one equals sign, a move by
the first occurrence of its verb, and anything else as itself. -/
namespace Turtle.Command

variable {line : String} {text token before after : List Char} {c : Command}

/-- A text around the first occurrence of a token in it. -/
structure FirstCut (token text before after : List Char) : Prop where
  split : text = before ++ token ++ after
  first : ∀ earlier later, text = earlier ++ token ++ later → before.length ≤ earlier.length

namespace FirstCut

theorem unique {other rest : List Char} (cut : FirstCut token text before after)
    (again : FirstCut token text other rest) : before = other ∧ after = rest := by
  have same : before.length = other.length :=
    Nat.le_antisymm (cut.first other rest again.split) (again.first before after cut.split)
  have texts := cut.split.symm.trans again.split
  rw [List.append_assoc, List.append_assoc] at texts
  obtain ⟨left, right⟩ := List.append_inj texts same
  exact ⟨left, List.append_cancel_left right⟩

theorem inside (cut : FirstCut token text before after) : token <:+: text :=
  ⟨before, after, cut.split.symm⟩

theorem head (starts : token <+: text) : FirstCut token text [] (text.drop token.length) where
  split := (List.prefix_iff_eq_append.mp starts).symm
  first _ _ _ := Nat.zero_le _

theorem cons {d : Char} (cut : FirstCut token text before after) (later : ¬ token <+: d :: text) :
    FirstCut token (d :: text) (d :: before) after where
  split := congrArg (d :: ·) cut.split
  first earlier rest same := by
    cases earlier with
    | nil => exact absurd ⟨rest, same.symm⟩ later
    | cons e earlier =>
      obtain ⟨_, same⟩ := List.cons.inj same
      exact Nat.succ_le_succ (cut.first earlier rest same)

theorem singleton_iff {d : Char} :
    FirstCut [d] text before after ↔ text = before ++ d :: after ∧ d ∉ before := by
  constructor
  · rintro ⟨split, first⟩
    refine ⟨by simpa using split, fun inside => ?_⟩
    obtain ⟨earlier, later, rfl⟩ := List.append_of_mem inside
    have longer := first earlier (later ++ d :: after) (by simp [split])
    rw [List.length_append, List.length_cons] at longer
    omega
  · rintro ⟨rfl, missing⟩
    refine ⟨by simp, fun earlier later same => ?_⟩
    apply Nat.le_of_not_lt
    intro shorter
    -- an earlier occurrence would stand inside the part before this one
    rw [List.append_assoc, List.append_eq_append_iff] at same
    rcases same with ⟨more, rfl, _⟩ | ⟨between, rfl, rest⟩
    · rw [List.length_append] at shorter
      omega
    · cases between with
      | nil => simp at shorter
      | cons e between =>
        obtain ⟨rfl, _⟩ := List.cons.inj rest
        simp at missing

end FirstCut

theorem append_cons_inj {d : Char} {other rest : List Char} (early : d ∉ before)
    (also : d ∉ other) (same : before ++ d :: after = other ++ d :: rest) :
    before = other ∧ after = rest :=
  (FirstCut.singleton_iff.mpr ⟨rfl, early⟩).unique (FirstCut.singleton_iff.mpr ⟨same, also⟩)

theorem firstCut_of_cut? (cut : cut? token text = some (before, after)) :
    FirstCut token text before after := by
  induction text generalizing before with
  | nil => cases cut
  | cons d text ih =>
    unfold cut? at cut
    split at cut
    · rename_i starts
      cases Option.some.inj cut
      exact .head (List.isPrefixOf_iff_prefix.mp starts)
    · rename_i later
      obtain ⟨⟨left, right⟩, found, same⟩ := Option.map_eq_some_iff.mp cut
      cases same
      exact (ih found).cons fun starts => later (List.isPrefixOf_iff_prefix.mpr starts)

theorem cut?_of_infix (proper : token ≠ []) (inside : token <:+: text) :
    ∃ before after, cut? token text = some (before, after) := by
  induction text with
  | nil => exact absurd (List.infix_nil.mp inside) proper
  | cons d text ih =>
    unfold cut?
    split
    · exact ⟨_, _, rfl⟩
    · rename_i later
      have further := (List.infix_cons_iff.mp inside).resolve_left
        fun starts => later (List.isPrefixOf_iff_prefix.mpr starts)
      obtain ⟨left, right, found⟩ := ih further
      exact ⟨d :: left, right, by rw [found]; rfl⟩

theorem cut?_eq_some_iff (proper : token ≠ []) :
    cut? token text = some (before, after) ↔ FirstCut token text before after := by
  refine ⟨firstCut_of_cut?, fun cut => ?_⟩
  obtain ⟨left, right, found⟩ := cut?_of_infix proper cut.inside
  obtain ⟨rfl, rfl⟩ := (firstCut_of_cut? found).unique cut
  exact found

theorem cut?_eq_none_iff (proper : token ≠ []) : cut? token text = none ↔ ¬ token <:+: text := by
  constructor
  · intro missing inside
    obtain ⟨left, right, found⟩ := cut?_of_infix proper inside
    cases missing.symm.trans found
  · intro outside
    cases found : cut? token text with
    | none => rfl
    | some parts => exact absurd (firstCut_of_cut? found).inside outside

theorem cut?_singleton_iff {d : Char} :
    cut? [d] text = some (before, after) ↔ text = before ++ d :: after ∧ d ∉ before :=
  (cut?_eq_some_iff (List.cons_ne_nil d [])).trans FirstCut.singleton_iff

theorem assignment?_eq_some_iff {left right : List Char} :
    assignment? text = some (left, right) ↔
      text = left ++ '=' :: right ∧ left ≠ [] ∧ right ≠ [] ∧ '=' ∉ left ∧ '=' ∉ right := by
  constructor
  · intro claimed
    unfold assignment? at claimed
    split at claimed
    · rename_i found
      split at claimed
      · cases claimed
      · rename_i proper
        cases Option.some.inj claimed
        obtain ⟨split, single⟩ := cut?_singleton_iff.mp found
        rw [not_or, not_or] at proper
        exact ⟨split, proper.1, proper.2.1, single, proper.2.2⟩
    · cases claimed
  · rintro ⟨split, named, more, single, alone⟩
    have found := cut?_singleton_iff.mpr ⟨split, single⟩
    simp only [assignment?, found, named, more, alone, or_self, if_false]

/-- What ends a line ends its right-hand side, unless it has the sign between the sides in it. -/
theorem suffix_append_cons_iff {d : Char} {left right : List Char} (missing : d ∉ token) :
    token <:+ left ++ d :: right ↔ token <:+ right := by
  constructor
  · intro ends
    rcases List.suffix_or_suffix_of_suffix ends (List.suffix_append left (d :: right)) with
      inside | outside
    · rcases List.suffix_cons_iff.mp inside with rfl | further
      · exact absurd List.mem_cons_self missing
      · exact further
    · exact absurd (outside.mem List.mem_cons_self) missing
  · intro ends
    exact ends.trans ((List.suffix_cons d right).trans (List.suffix_append left (d :: right)))

/-- An ending begins no earlier than its first character can. -/
theorem suffix_of_suffix_append {d : Char} {rest : List Char} (missing : d ∉ before)
    (ends : d :: rest <:+ before ++ after) : d :: rest <:+ after := by
  rcases List.suffix_or_suffix_of_suffix ends (List.suffix_append before after) with
    short | ⟨more, long⟩
  · exact short
  · obtain ⟨start, same⟩ := ends
    rw [← long, ← List.append_assoc] at same
    have whole := List.append_cancel_right same
    cases more with
    | nil => exact ⟨[], long.symm⟩
    | cons e more =>
      obtain ⟨rfl, _⟩ := List.cons.inj long
      rw [← whole] at missing
      exact absurd (List.mem_append_right start List.mem_cons_self) missing

/-- A name, the only equals sign, and a text that ends as a spawn does. -/
def Spawns (text name : List Char) : Prop :=
  ∃ rest, text = name ++ '=' :: rest ∧ name ≠ [] ∧ '=' ∉ name ∧ '=' ∉ rest ∧
    "Turtle()".toList <:+ rest

/-- A variable, the only equals sign, an actor up to the first point, and a text that ends, from
that point on, as a query does. -/
def Queries (text into actor : List Char) : Prop :=
  ∃ rest, text = into ++ '=' :: (actor ++ '.' :: rest) ∧ into ≠ [] ∧ actor ≠ [] ∧
    '=' ∉ into ∧ '=' ∉ actor ∧ '=' ∉ rest ∧ '.' ∉ actor ∧ ".position()".toList <:+ '.' :: rest

/-- A closing parenthesis after an actor, the first occurrence of the verb, and an operand. The verb
is the short one only if the long one is nowhere. -/
def Moves (text actor operand : List Char) : Prop :=
  ∃ body, text = body ++ [')'] ∧
    (FirstCut ".forward(".toList body actor operand ∨
      ¬ ".forward(".toList <:+: body ∧ FirstCut ".fd(".toList body actor operand)

def Denotes (operand : List Char) (distance : Single) : Prop :=
  Number.ofText? operand = some distance ∧ distance.isFinite = true

structure Unassigned (text : List Char) : Prop where
  spawns : ∀ name, ¬ Spawns text name
  queries : ∀ into actor, ¬ Queries text into actor

/-- What a line is read as, by its shape. -/
inductive Reading (line : String) : Command → Prop where
  | spawn (name : String) :
      Spawns line.toList name.toList → Reading line (.spawn name)
  | query (into actor : String) :
      Queries line.toList into.toList actor.toList → Reading line (.query into actor)
  | move (actor : String) (operand : List Char) (distance : Single) :
      Unassigned line.toList → Moves line.toList actor.toList operand →
      Denotes operand distance → Reading line (.move actor distance)
  | malformedMove (actor operand : String) :
      Unassigned line.toList → Moves line.toList actor.toList operand.toList →
      (∀ distance, ¬ Denotes operand.toList distance) → Reading line (.malformedMove actor operand)
  | unrecognized :
      Unassigned line.toList → (∀ actor operand, ¬ Moves line.toList actor operand) →
      Reading line (.unrecognized line)

theorem spawn?_eq_some_iff :
    spawn? text = some c ↔ ∃ name, Spawns text name ∧ c = .spawn (.ofList name) := by
  constructor
  · intro claimed
    have ends : "Turtle()".toList <:+ text := by
      unfold spawn? at claimed
      split at claimed
      · exact List.isSuffixOf_iff_suffix.mp ‹_›
      · cases claimed
    obtain ⟨name, rest, cut, shape⟩ := spawn?_eq_some claimed
    obtain ⟨rfl, named, _, single, alone⟩ := assignment?_eq_some_iff.mp cut
    have inside := (suffix_append_cons_iff (by decide)).mp ends
    exact ⟨name, ⟨rest, rfl, named, single, alone, inside⟩, shape⟩
  · rintro ⟨name, ⟨rest, rfl, named, single, alone, inside⟩, rfl⟩
    have ends : "Turtle()".toList <:+ name ++ '=' :: rest :=
      (suffix_append_cons_iff (by decide)).mpr inside
    have more : rest ≠ [] := by
      rintro rfl
      exact absurd (List.suffix_nil.mp inside) (by decide)
    have cut := assignment?_eq_some_iff.mpr ⟨rfl, named, more, single, alone⟩
    rw [spawn?, if_pos (List.isSuffixOf_iff_suffix.mpr ends), cut]
    rfl

theorem query?_eq_some_iff :
    query? text = some c ↔
      ∃ into actor, Queries text into actor ∧ c = .query (.ofList into) (.ofList actor) := by
  constructor
  · intro claimed
    unfold query? at claimed
    split at claimed
    · rename_i ends
      split at claimed
      · rename_i into right cut
        split at claimed
        · rename_i actor rest found
          split at claimed
          · cases claimed
          · rename_i proper
            obtain ⟨rfl, named, _, single, alone⟩ := assignment?_eq_some_iff.mp cut
            obtain ⟨rfl, early⟩ := cut?_singleton_iff.mp found
            rw [List.mem_append, List.mem_cons, not_or, not_or] at alone
            have inside := (suffix_append_cons_iff (by decide)).mp
              (List.isSuffixOf_iff_suffix.mp ends)
            exact ⟨into, actor, ⟨rest, rfl, named, proper, single, alone.1, alone.2.2, early,
              suffix_of_suffix_append early inside⟩, (Option.some.inj claimed).symm⟩
        · cases claimed
      · cases claimed
    · cases claimed
  · rintro ⟨into, actor, ⟨rest, rfl, named, proper, single, alone, sole, early, inside⟩, rfl⟩
    have ends : ".position()".toList <:+ into ++ '=' :: (actor ++ '.' :: rest) :=
      (suffix_append_cons_iff (by decide)).mpr (inside.trans (List.suffix_append _ _))
    have cut : assignment? (into ++ '=' :: (actor ++ '.' :: rest))
        = some (into, actor ++ '.' :: rest) := by
      refine assignment?_eq_some_iff.mpr ⟨rfl, named, by simp, single, ?_⟩
      simp [alone, sole]
    have found : cut? ['.'] (actor ++ '.' :: rest) = some (actor, rest) :=
      cut?_singleton_iff.mpr ⟨rfl, early⟩
    simp only [query?, List.isSuffixOf_iff_suffix.mpr ends, cut, found, proper, if_true, if_false]

/-- Of the verbs, the long one decides where it occurs at all. -/
theorem findSome?_verbs_iff {body actor operand : List Char} :
    (verbs.findSome? fun verb => cut? verb body) = some (actor, operand) ↔
      FirstCut ".forward(".toList body actor operand ∨
        ¬ ".forward(".toList <:+: body ∧ FirstCut ".fd(".toList body actor operand := by
  have long : ".forward(".toList ≠ [] := by decide
  have short : ".fd(".toList ≠ [] := by decide
  rw [← cut?_eq_some_iff long, ← cut?_eq_some_iff short, ← cut?_eq_none_iff long, verbs,
    List.findSome?_cons, List.findSome?_cons, List.findSome?_nil]
  cases cut? ".forward(".toList body with
  | some parts => simp
  | none => cases cut? ".fd(".toList body <;> simp

theorem move?_eq_some_iff :
    move? text = some c ↔ ∃ actor operand, Moves text actor operand ∧ c = moveBy actor operand := by
  constructor
  · intro claimed
    unfold move? at claimed
    split at claimed
    · rename_i closed
      obtain ⟨body, rfl⟩ := List.getLast?_eq_some_iff.mp closed
      obtain ⟨⟨actor, operand⟩, found, rfl⟩ := Option.map_eq_some_iff.mp claimed
      rw [List.dropLast_concat] at found
      exact ⟨actor, operand, ⟨body, rfl, findSome?_verbs_iff.mp found⟩, rfl⟩
    · cases claimed
  · rintro ⟨actor, operand, ⟨body, rfl, cut⟩, rfl⟩
    rw [move?, if_pos List.getLast?_concat, List.dropLast_concat, findSome?_verbs_iff.mpr cut]
    rfl

theorem moves_iff : (∃ actor operand, Moves text actor operand) ↔
    ∃ body, text = body ++ [')'] ∧ (".forward(".toList <:+: body ∨ ".fd(".toList <:+: body) := by
  constructor
  · rintro ⟨actor, operand, body, closed, long | ⟨_, short⟩⟩
    · exact ⟨body, closed, .inl long.inside⟩
    · exact ⟨body, closed, .inr short.inside⟩
  · rintro ⟨body, closed, verb⟩
    by_cases long : ".forward(".toList <:+: body
    · obtain ⟨actor, operand, cut⟩ := cut?_of_infix (by decide) long
      exact ⟨actor, operand, body, closed, .inl (firstCut_of_cut? cut)⟩
    · obtain ⟨actor, operand, cut⟩ := cut?_of_infix (by decide) (verb.resolve_left long)
      exact ⟨actor, operand, body, closed, .inr ⟨long, firstCut_of_cut? cut⟩⟩

theorem distance?_eq_some_iff {operand : List Char} {distance : Single} :
    distance? operand = some distance ↔ Denotes operand distance :=
  Option.filter_eq_some_iff

theorem ofLine_of_spawn? (spawned : spawn? line.toList = some c) : ofLine line = c := by
  simp [ofLine, spawned]

theorem ofLine_of_query? (spawned : spawn? line.toList = none)
    (queried : query? line.toList = some c) : ofLine line = c := by
  simp [ofLine, spawned, queried]

/-- The two endings cannot both be there. -/
theorem Queries.not_spawns {into actor : List Char} (queries : Queries text into actor)
    (name : List Char) : ¬ Spawns text name := by
  rintro ⟨right, rfl, _, _, _, spawn⟩
  obtain ⟨rest, same, _, _, _, _, _, _, query⟩ := queries
  have first : "Turtle()".toList <:+ name ++ '=' :: right :=
    (suffix_append_cons_iff (by decide)).mpr spawn
  have second : ".position()".toList <:+ name ++ '=' :: right := by
    rw [same]
    exact (suffix_append_cons_iff (by decide)).mpr (query.trans (List.suffix_append _ _))
  rcases List.suffix_or_suffix_of_suffix first second with short | long
  · exact absurd short (by decide)
  · exact absurd long (by decide)

theorem spawn?_eq_none_iff : spawn? text = none ↔ ∀ name, ¬ Spawns text name := by
  rw [Option.eq_none_iff_forall_ne_some]
  constructor
  · intro none name spawns
    exact none _ (spawn?_eq_some_iff.mpr ⟨name, spawns, rfl⟩)
  · intro never c claimed
    obtain ⟨name, spawns, _⟩ := spawn?_eq_some_iff.mp claimed
    exact never name spawns

theorem query?_eq_none_iff : query? text = none ↔ ∀ into actor, ¬ Queries text into actor := by
  rw [Option.eq_none_iff_forall_ne_some]
  constructor
  · intro none into actor queries
    exact none _ (query?_eq_some_iff.mpr ⟨into, actor, queries, rfl⟩)
  · intro never c claimed
    obtain ⟨into, actor, queries, _⟩ := query?_eq_some_iff.mp claimed
    exact never into actor queries

theorem Unassigned.ofLine_eq (unassigned : Unassigned line.toList) :
    ofLine line = (move? line.toList).getD (.unrecognized line) := by
  have spawned := spawn?_eq_none_iff.mpr unassigned.spawns
  have queried := query?_eq_none_iff.mpr unassigned.queries
  simp [ofLine, spawned, queried]

theorem reading_moveBy {actor operand : List Char} (unassigned : Unassigned line.toList)
    (moves : Moves line.toList actor operand) : Reading line (moveBy actor operand) := by
  unfold moveBy
  cases read : distance? operand with
  | some distance =>
    refine .move _ operand distance unassigned ?_ (distance?_eq_some_iff.mp read)
    rw [String.toList_ofList]
    exact moves
  | none =>
    refine .malformedMove _ _ unassigned ?_ fun distance denotes => ?_
    · rw [String.toList_ofList, String.toList_ofList]
      exact moves
    · rw [String.toList_ofList] at denotes
      cases read.symm.trans (distance?_eq_some_iff.mpr denotes)

theorem reading_ofLine (line : String) : Reading line (ofLine line) := by
  cases spawned : spawn? line.toList with
  | some c =>
    rw [ofLine_of_spawn? spawned]
    obtain ⟨name, spawns, rfl⟩ := spawn?_eq_some_iff.mp spawned
    exact .spawn _ (by rw [String.toList_ofList]; exact spawns)
  | none =>
    cases queried : query? line.toList with
    | some c =>
      rw [ofLine_of_query? spawned queried]
      obtain ⟨into, actor, queries, rfl⟩ := query?_eq_some_iff.mp queried
      exact .query _ _ (by rw [String.toList_ofList, String.toList_ofList]; exact queries)
    | none =>
      have unassigned : Unassigned line.toList :=
        ⟨spawn?_eq_none_iff.mp spawned, query?_eq_none_iff.mp queried⟩
      rw [unassigned.ofLine_eq]
      cases moved : move? line.toList with
      | some c =>
        obtain ⟨actor, operand, moves, rfl⟩ := move?_eq_some_iff.mp moved
        exact reading_moveBy unassigned moves
      | none =>
        refine .unrecognized unassigned fun actor operand moves => ?_
        cases moved.symm.trans (move?_eq_some_iff.mpr ⟨actor, operand, moves, rfl⟩)

theorem Reading.ofLine_eq (reading : Reading line c) : ofLine line = c := by
  cases reading with
  | spawn name spawns =>
    apply ofLine_of_spawn?
    exact spawn?_eq_some_iff.mpr ⟨name.toList, spawns, by rw [String.ofList_toList]⟩
  | query into actor queries =>
    apply ofLine_of_query? (spawn?_eq_none_iff.mpr queries.not_spawns)
    refine query?_eq_some_iff.mpr ⟨into.toList, actor.toList, queries, ?_⟩
    rw [String.ofList_toList, String.ofList_toList]
  | move actor operand distance unassigned moves denotes =>
    rw [unassigned.ofLine_eq, move?_eq_some_iff.mpr ⟨_, _, moves, rfl⟩, Option.getD_some, moveBy,
      distance?_eq_some_iff.mpr denotes, String.ofList_toList]
  | malformedMove actor operand unassigned moves senseless =>
    have unread : distance? operand.toList = none := by
      rw [Option.eq_none_iff_forall_ne_some]
      exact fun distance read => senseless distance (distance?_eq_some_iff.mp read)
    rw [unassigned.ofLine_eq, move?_eq_some_iff.mpr ⟨_, _, moves, rfl⟩, Option.getD_some, moveBy,
      unread, String.ofList_toList, String.ofList_toList]
  | unrecognized unassigned still =>
    have unmoved : move? line.toList = none := by
      rw [Option.eq_none_iff_forall_ne_some]
      intro c claimed
      obtain ⟨actor, operand, moves, _⟩ := move?_eq_some_iff.mp claimed
      exact still actor operand moves
    rw [unassigned.ofLine_eq, unmoved, Option.getD_none]

/-- Every line is read as its shape says, and as nothing else; and a shape is that of a move exactly
if it is closed by a parenthesis after one of the verbs. -/
theorem ofLine_eq_iff_reading (line : String) :
    (∀ c, ofLine line = c ↔ Reading line c) ∧
    ((∃ actor operand, Moves line.toList actor operand) ↔ ∃ body, line.toList = body ++ [')'] ∧
      (".forward(".toList <:+: body ∨ ".fd(".toList <:+: body)) := by
  refine ⟨fun c => ⟨?_, Reading.ofLine_eq⟩, moves_iff⟩
  rintro rfl
  exact reading_ofLine line

/-- The long verb decides, though the short one comes first. -/
example : ofLine "A.fd(1).forward(2)" = .move "A.fd(1)" 2 := by decide +kernel

end Turtle.Command
