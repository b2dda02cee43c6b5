import Turtle.Command.Grammar

/-! What the commands of lines have in common, whatever the line: a spawn gives a name, and a move
has a finite distance. -/
namespace Turtle.Command

variable {line : String} {text : List Char} {c : Command}

theorem assignment?_ne_nil {left right : List Char}
    (cut : assignment? text = some (left, right)) : left ≠ [] := by
  unfold assignment? at cut
  split at cut
  · split at cut
    · contradiction
    · rename_i proper
      cases Option.some.inj cut
      exact fun empty => proper (.inl empty)
  · contradiction

theorem spawn?_eq_some (claimed : spawn? text = some c) :
    ∃ left right, assignment? text = some (left, right) ∧ c = .spawn (.ofList left) := by
  unfold spawn? at claimed
  split at claimed
  · obtain ⟨⟨left, right⟩, cut, rfl⟩ := Option.map_eq_some_iff.mp claimed
    exact ⟨left, right, cut, rfl⟩
  · contradiction

theorem query?_eq_some (claimed : query? text = some c) : ∃ into actor, c = .query into actor := by
  unfold query? at claimed
  split at claimed
  · split at claimed
    · split at claimed
      · split at claimed
        · contradiction
        · exact ⟨_, _, (Option.some.inj claimed).symm⟩
      · contradiction
    · contradiction
  · contradiction

theorem move?_eq_some (claimed : move? text = some c) :
    ∃ actor operand, c = moveBy actor operand := by
  unfold move? at claimed
  split at claimed
  · obtain ⟨⟨actor, operand⟩, _, rfl⟩ := Option.map_eq_some_iff.mp claimed
    exact ⟨actor, operand, rfl⟩
  · contradiction

/-- The command of a line comes from one of the three forms, or else keeps the line whole. -/
theorem ofLine_cases (line : String) :
    spawn? line.toList = some (ofLine line) ∨ query? line.toList = some (ofLine line) ∨
      move? line.toList = some (ofLine line) ∨ ofLine line = .unrecognized line := by
  cases spawned : spawn? line.toList with
  | some c => exact .inl (by simp [ofLine, spawned])
  | none =>
    cases queried : query? line.toList with
    | some c => exact .inr (.inl (by simp [ofLine, spawned, queried]))
    | none =>
      cases moved : move? line.toList with
      | some c => exact .inr (.inr (.inl (by simp [ofLine, spawned, queried, moved])))
      | none => exact .inr (.inr (.inr (by simp [ofLine, spawned, queried, moved])))

/-- A line that is recognized ends in a parenthesis, so it is not blank. -/
theorem closes_of_recognized (recognized : ofLine line ≠ .unrecognized line) :
    ')' ∈ line.toList := by
  have last {token : List Char} (ends : token.isSuffixOf line.toList = true)
      (closes : ')' ∈ token) : ')' ∈ line.toList :=
    (List.isSuffixOf_iff_suffix.mp ends).subset closes
  rcases ofLine_cases line with claimed | claimed | claimed | whole
  · unfold spawn? at claimed
    split at claimed
    · exact last ‹_› (by decide)
    · contradiction
  · unfold query? at claimed
    split at claimed
    · exact last ‹_› (by decide)
    · contradiction
  · unfold move? at claimed
    split at claimed
    · exact List.mem_of_getLast? ‹_›
    · contradiction
  · exact absurd whole recognized

theorem moveBy_ne_spawn (actor operand : List Char) (name : String) :
    moveBy actor operand ≠ .spawn name := by
  unfold moveBy
  split <;> exact Command.noConfusion

theorem name_ne_empty {name : String} (spawns : ofLine line = .spawn name) : name ≠ "" := by
  rcases ofLine_cases line with claimed | claimed | claimed | whole
  · obtain ⟨left, right, cut, shape⟩ := spawn?_eq_some claimed
    cases shape.symm.trans spawns
    intro empty
    exact assignment?_ne_nil cut (by simpa using empty)
  · obtain ⟨into, actor, shape⟩ := query?_eq_some claimed
    cases shape.symm.trans spawns
  · obtain ⟨actor, operand, shape⟩ := move?_eq_some claimed
    exact absurd (shape.symm.trans spawns) (moveBy_ne_spawn actor operand name)
  · cases whole.symm.trans spawns

theorem distance_isFinite {actor : String} {distance : Single}
    (moves : ofLine line = .move actor distance) : distance.isFinite = true := by
  rcases ofLine_cases line with claimed | claimed | claimed | whole
  · obtain ⟨left, right, _, shape⟩ := spawn?_eq_some claimed
    cases shape.symm.trans moves
  · obtain ⟨into, other, shape⟩ := query?_eq_some claimed
    cases shape.symm.trans moves
  · obtain ⟨before, operand, shape⟩ := move?_eq_some claimed
    have read := shape.symm.trans moves
    unfold moveBy at read
    split at read
    · rename_i value finite
      cases read
      exact (Option.filter_eq_some_iff.mp finite).2
    · cases read
  · cases whole.symm.trans moves

end Turtle.Command
