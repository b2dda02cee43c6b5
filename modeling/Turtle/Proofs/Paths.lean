import Turtle.Files

/-! Where paths lead in a tree.
What is listed at some names is found by the path that they make up, as long as nothing is listed
beyond a file. Where nothing is found, a file on the way is told from a name that is missing. -/
namespace Turtle.Tree

/-- A name of a file or a directory, and not a step that stays or goes up. -/
structure IsName (name : String) : Prop where
  moves : ¬ (name = "" ∨ name = ".")
  descends : name ≠ ".."
  whole : '/' ∉ name.toList

instance (name : String) : Decidable (IsName name) :=
  decidable_of_iff (¬ (name = "" ∨ name = ".") ∧ name ≠ ".." ∧ '/' ∉ name.toList)
    ⟨fun ⟨moves, descends, whole⟩ => ⟨moves, descends, whole⟩,
      fun ⟨moves, descends, whole⟩ => ⟨moves, descends, whole⟩⟩

def path (way : List String) : String := .ofList (['/'].intercalate (way.map String.toList))

/-- Nothing is listed beyond a file. -/
def Sound (t : Tree) : Prop :=
  ∀ file ∈ t.files, (∀ other ∈ t.files, file.1 <+: other.1 → other.1 = file.1) ∧
    ∀ way ∈ t.directories, file.1 <+: way → way = file.1

instance (t : Tree) : Decidable t.Sound := inferInstanceAs (Decidable (∀ file ∈ t.files, _))

/-- A file stands on the way. -/
def Blocked (t : Tree) (way : List String) : Prop :=
  ∃ front content, front <+: way ∧ t.entry? front = some (.file content)

variable {t : Tree} {way rest names : List String} {name : String} {content : Text.Bytes}
  {entry : Entry}

theorem mem_files_of_found (here : t.entry? way = some (.file content)) :
    (way, content) ∈ t.files := by
  unfold entry? at here
  split at here
  · rename_i file content found
    have same := List.find?_some found
    simp only [beq_iff_eq] at same
    cases here
    exact same ▸ List.mem_of_find?_eq_some found
  · split at here <;> cases here

/-- There is something at the top, and at every way to what is listed. -/
theorem isSome_entry?_iff :
    (t.entry? way).isSome ↔
      way = [] ∨ (∃ file ∈ t.files, way <+: file.1) ∨ ∃ below ∈ t.directories, way <+: below := by
  unfold entry?
  split
  · rename_i file content found
    have same := List.find?_some found
    simp only [beq_iff_eq] at same
    subst same
    have listed := List.mem_of_find?_eq_some found
    simp only [Option.isSome_some, true_iff]
    exact .inr (.inl ⟨_, listed, List.prefix_rfl⟩)
  · rename_i missing
    have apart : ∀ file ∈ t.files, way ≠ file.1 := by
      intro file member same
      simpa [same] using List.find?_eq_none.mp missing file member
    have directory : t.isDirectory way = true ↔
        way = [] ∨ (∃ file ∈ t.files, way <+: file.1) ∨ ∃ below ∈ t.directories, way <+: below := by
      simp only [isDirectory, Bool.or_eq_true, List.isEmpty_iff, List.any_eq_true,
        Bool.and_eq_true, List.isPrefixOf_iff_prefix, bne_iff_ne]
      grind
    rw [← directory]
    split <;> simp_all

theorem isSome_entry?_of_append (found : (t.entry? (way ++ rest)).isSome) :
    (t.entry? way).isSome := by
  have before {longer : List String} (reached : way ++ rest <+: longer) : way <+: longer :=
    (List.prefix_append _ _).trans reached
  rw [isSome_entry?_iff] at found ⊢
  rcases found with empty | ⟨file, member, reached⟩ | ⟨below, member, reached⟩
  · exact .inl (List.append_eq_nil_iff.mp empty).1
  · exact .inr (.inl ⟨file, member, before reached⟩)
  · exact .inr (.inr ⟨below, member, before reached⟩)

theorem Sound.eq_nil (sound : t.Sound) (here : t.entry? way = some (.file content))
    (found : (t.entry? (way ++ rest)).isSome) : rest = [] := by
  obtain ⟨files, directories⟩ := sound _ (mem_files_of_found here)
  have last {longer : List String} (reached : way ++ rest <+: longer)
      (ends : way <+: longer → longer = way) : rest = [] := by
    have same := ends ((List.prefix_append _ _).trans reached)
    have length := reached.length_le
    rw [same, List.length_append] at length
    exact List.length_eq_zero_iff.mp (by omega)
  rw [isSome_entry?_iff] at found
  rcases found with empty | ⟨file, member, reached⟩ | ⟨below, member, reached⟩
  · exact (List.append_eq_nil_iff.mp empty).2
  · exact last reached (files file member)
  · exact last reached (directories below member)

theorem walk_of_directory (named : IsName name) (here : t.entry? way = some .directory) :
    t.walk (.inside way) name =
      if (t.entry? (way ++ [name])).isSome then .ok (.inside (way ++ [name]))
      else .error .missing := by
  simp only [walk, here, if_neg named.moves, if_neg named.descends]

theorem walk_of_file (here : t.entry? way = some (.file content)) :
    t.walk (.inside way) name = .error .notDirectory := by
  simp only [walk, here]

theorem foldlM_walk_of_isSome (sound : t.Sound) (named : ∀ name ∈ names, IsName name)
    (found : (t.entry? (way ++ names)).isSome) :
    names.foldlM t.walk (.inside way) = .ok (.inside (way ++ names)) := by
  induction names generalizing way with
  | nil => simp [pure, Except.pure]
  | cons name names ih =>
    obtain ⟨first, later⟩ := List.forall_mem_cons.mp named
    rw [List.append_cons] at found ⊢
    have next := isSome_entry?_of_append found
    obtain ⟨entry, here⟩ := Option.isSome_iff_exists.mp (isSome_entry?_of_append next)
    cases entry with
    | file content => cases sound.eq_nil here next
    | directory =>
      rw [List.foldlM_cons, walk_of_directory first here, if_pos next]
      exact ih later found

theorem foldlM_walk_of_blocked (sound : t.Sound) (named : ∀ name ∈ way, IsName name)
    (missing : t.entry? way = none) (blocked : t.Blocked way) :
    way.foldlM t.walk (.inside []) = .error .notDirectory := by
  obtain ⟨front, content, ⟨rest, rfl⟩, here⟩ := blocked
  have arrived : front.foldlM t.walk (.inside []) = .ok (.inside front) :=
    foldlM_walk_of_isSome sound (fun _ member => named _ (List.mem_append_left _ member))
      (by simp [here])
  cases rest with
  | nil => simp [here] at missing
  | cons name rest =>
    rw [List.foldlM_append, arrived]
    simp [walk_of_file here, bind, Except.bind]

theorem foldlM_walk_of_missing (named : ∀ name ∈ names, IsName name)
    (start : (t.entry? way).isSome) (missing : t.entry? (way ++ names) = none)
    (clear : ¬ t.Blocked (way ++ names)) :
    names.foldlM t.walk (.inside way) = .error .missing := by
  induction names generalizing way with
  | nil => simp_all
  | cons name names ih =>
    obtain ⟨first, later⟩ := List.forall_mem_cons.mp named
    obtain ⟨entry, here⟩ := Option.isSome_iff_exists.mp start
    cases entry with
    | file content => exact absurd ⟨way, content, List.prefix_append _ _, here⟩ clear
    | directory =>
      rw [List.foldlM_cons, walk_of_directory first here]
      split
      · rename_i next
        rw [List.append_cons] at missing clear
        exact ih later next missing clear
      · rfl

theorem names_path (leads : way ≠ []) (named : ∀ name ∈ way, IsName name) :
    Tree.names (path way) = way := by
  have whole : ∀ piece ∈ way.map String.toList, '/' ∉ piece := by
    simpa using fun name member => (named name member).whole
  rw [Tree.names, path, String.toList_ofList,
    List.splitOn_intercalate _ whole (by simpa using leads)]
  simp [Function.comp_def]

/-- A path of names starts inside of the tree. -/
theorem resolve_path (leads : way ≠ []) (named : ∀ name ∈ way, IsName name) :
    t.resolve (path way) = way.foldlM t.walk (.inside []) >>= t.entryAt := by
  obtain _ | ⟨name, more⟩ := way
  · contradiction
  · have first := named name List.mem_cons_self
    obtain ⟨c, letters, spelt⟩ := List.exists_cons_of_ne_nil
      (show name.toList ≠ [] by simpa using fun empty => first.moves (.inl empty))
    have inside : c ≠ '/' := by
      rintro rfl
      exact first.whole (by simp [spelt])
    have head : (path (name :: more)).toList.head? = some c := by
      cases more <;> simp [path, List.intercalate, spelt]
    have proper : path (name :: more) ≠ "" := by
      intro empty
      simp [empty] at head
    simp only [resolve, if_neg proper, head, names_path leads named, Option.some.injEq,
      if_neg inside]

theorem isSome_entry?_nil : (t.entry? []).isSome := isSome_entry?_iff.mpr (.inl rfl)

theorem resolve_of_eq_some (sound : t.Sound) (leads : way ≠ [])
    (named : ∀ name ∈ way, IsName name) (here : t.entry? way = some entry) :
    t.resolve (path way) = .ok entry := by
  have arrived : way.foldlM t.walk (.inside []) = .ok (.inside way) :=
    foldlM_walk_of_isSome sound named (by simp [here])
  simp [resolve_path leads named, arrived, bind, Except.bind, entryAt, here]

theorem resolve_of_blocked (sound : t.Sound) (leads : way ≠ [])
    (named : ∀ name ∈ way, IsName name) (missing : t.entry? way = none)
    (blocked : t.Blocked way) : t.resolve (path way) = .error .notDirectory := by
  rw [resolve_path leads named, foldlM_walk_of_blocked sound named missing blocked]
  rfl

theorem resolve_of_missing (leads : way ≠ []) (named : ∀ name ∈ way, IsName name)
    (missing : t.entry? way = none) (clear : ¬ t.Blocked way) :
    t.resolve (path way) = .error .missing := by
  have stuck : way.foldlM t.walk (.inside []) = .error .missing :=
    foldlM_walk_of_missing named isSome_entry?_nil missing clear
  rw [resolve_path leads named, stuck]
  rfl

/-- A path of names leads to what is listed at them. If nothing is, it leads nowhere: the walk comes
to a file that is not a directory if there is one on the way, or else misses a name. -/
theorem resolve_path_iff (sound : t.Sound) (leads : way ≠ [])
    (named : ∀ name ∈ way, IsName name) :
    (∀ entry, t.resolve (path way) = .ok entry ↔ t.entry? way = some entry) ∧
      (t.resolve (path way) = .error .notDirectory ↔ t.entry? way = none ∧ t.Blocked way) ∧
      (t.resolve (path way) = .error .missing ↔ t.entry? way = none ∧ ¬ t.Blocked way) := by
  cases here : t.entry? way with
  | some entry => simp [resolve_of_eq_some sound leads named here]
  | none =>
    by_cases blocked : t.Blocked way
    · simp [resolve_of_blocked sound leads named here blocked, blocked]
    · simp [resolve_of_missing leads named here blocked, blocked]

end Turtle.Tree
