import Mathlib.Data.List.Basic
import Turtle.Actor.Pool

/-! What the slots of a pool hold after one of them is filled.
In a packed pool the slots in use come first, so the slot that is handed out is the one after
them. -/
namespace Turtle.Pool

variable {p q : Pool} {slot other : Slot} {a b : Actor}

theorem active_of_get? (found : p.get? slot = some a) : a.active = true :=
  (get?_eq_some_iff.mp found).2

theorem lt_capacity_of_get? (found : p.get? slot = some a) : slot < p.capacity :=
  (List.getElem?_eq_some_iff.mp (get?_eq_some_iff.mp found).1).1

theorem getElem?_set (within : slot < p.capacity) (a : Actor) (other : Slot) :
    (p.set slot a).slots[other]? = if other = slot then some a else p.slots[other]? := by
  by_cases hit : other = slot
  · subst hit
    rw [if_pos rfl]
    exact List.getElem?_set_self within
  · rw [if_neg hit]
    exact List.getElem?_set_ne (Ne.symm hit)

theorem get?_set (within : slot < p.capacity) (active : a.active = true) (other : Slot) :
    (p.set slot a).get? other = if other = slot then some a else p.get? other := by
  unfold get?
  rw [getElem?_set within]
  split
  · exact Option.filter_some_pos active
  · rfl

theorem get?_set_self (within : slot < p.capacity) (active : a.active = true) :
    (p.set slot a).get? slot = some a :=
  (get?_set within active slot).trans (if_pos rfl)

@[simp] theorem set_set (p : Pool) (slot : Slot) (a b : Actor) :
    (p.set slot a).set slot b = p.set slot b := by
  simp only [set, List.set_set]

theorem update_of_get? (found : p.get? slot = some a) (change : Actor → Actor) :
    p.update slot change = p.set slot (change a) := by
  simp only [update, found]

theorem get?_of_inactive (here : p.slots[slot]? = some a) (idle : a.active = false) :
    p.get? slot = none := by
  unfold get?
  rw [here]
  exact Option.filter_some_neg (by simp [idle])

theorem activeCount_set (within : slot < p.capacity) (active : a.active = true) :
    (p.set slot a).activeCount
      = if (p.get? slot).isSome then p.activeCount else p.activeCount + 1 := by
  have inside : slot < p.slots.length := within
  have here : p.slots[slot]? = some p.slots[slot] := List.getElem?_eq_getElem inside
  have counted := List.countP_set (p := Actor.active) (a := a) inside
  cases used : p.slots[slot].active with
  | true =>
    have found : p.get? slot = some p.slots[slot] := get?_eq_some_iff.mpr ⟨here, used⟩
    have positive : 0 < p.activeCount :=
      List.countP_pos_iff.mpr ⟨_, List.getElem_mem inside, used⟩
    rw [found, Option.isSome_some, if_pos rfl]
    simp only [used, active, if_true] at counted
    exact counted.trans (Nat.sub_add_cancel positive)
  | false =>
    have free : p.get? slot = none := get?_of_inactive here used
    rw [free, Option.isSome_none, if_neg Bool.false_ne_true]
    simp only [used, active, if_true, Bool.false_eq_true, if_false, Nat.sub_zero] at counted
    exact counted

theorem room_or_full (p : Pool) : p.activeCount < p.capacity ∨ p.activeCount = p.capacity :=
  Nat.lt_or_eq_of_le List.countP_le_length

/-- Only the actor of the slot handed out changes, and only by becoming active. -/
theorem acquire?_eq_set (taken : p.acquire? = some (slot, q)) :
    ∃ old, p.slots[slot]? = some old ∧ old.active = false ∧ q = p.set slot old.activate := by
  obtain ⟨⟨old, here, idle⟩, _, rfl⟩ := acquire?_eq_some taken
  refine ⟨old, here, idle, ?_⟩
  simp only [set, List.modify_eq_set_getElem?, here, Option.map_eq_map, Option.map_some,
    Option.getD_some]

/-- The slot handed out, once an actor is placed in it, holds that actor, in use and at rest. -/
theorem update_acquired (taken : p.acquire? = some (slot, q)) (name : String) (pose : Pose) :
    q.update slot (fun actor => actor.place name pose) = p.set slot ⟨name, pose, true, none⟩ := by
  obtain ⟨old, here, _, rfl⟩ := acquire?_eq_set taken
  have within : slot < p.capacity := (List.getElem?_eq_some_iff.mp here).1
  have found : (p.set slot old.activate).get? slot = some old.activate :=
    get?_set_self within rfl
  exact (update_of_get? found _).trans (set_set _ _ _ _)

/-- The slots in use are the first ones. -/
def Packed (p : Pool) : Prop := ∀ slot, (p.get? slot).isSome ↔ slot < p.activeCount

@[simp] theorem get?_ofCapacity (n : Nat) (slot : Slot) : (ofCapacity n).get? slot = none := by
  unfold get? ofCapacity
  rw [List.getElem?_replicate]
  split <;> rfl

@[simp] theorem activeCount_ofCapacity (n : Nat) : (ofCapacity n).activeCount = 0 := by
  simp [ofCapacity, activeCount, List.countP_replicate, Actor.blank]

theorem packed_ofCapacity (n : Nat) : (ofCapacity n).Packed := by
  intro slot
  simp

/-- A packed pool hands out the first slot after those in use, while there is one. -/
theorem Packed.slot_of_acquire? (packed : p.Packed) (taken : p.acquire? = some (slot, q)) :
    slot = p.activeCount ∧ slot < p.capacity ∧ p.get? slot = none := by
  obtain ⟨⟨old, here, idle⟩, below, _⟩ := acquire?_eq_some taken
  have free : p.get? slot = none := get?_of_inactive here idle
  have notBelow : ¬slot < p.activeCount := by
    intro used
    have some := (packed slot).mpr used
    simp [free] at some
  have notAbove : ¬p.activeCount < slot := by
    intro gap
    obtain ⟨actor, held, active⟩ := below _ gap
    have used := (packed p.activeCount).mp (by rw [get?_eq_some_iff.mpr ⟨held, active⟩]; rfl)
    exact Nat.lt_irrefl _ used
  have least : slot = p.activeCount :=
    Nat.le_antisymm (Nat.le_of_not_lt notAbove) (Nat.le_of_not_lt notBelow)
  exact ⟨least, (List.getElem?_eq_some_iff.mp here).1, free⟩

theorem acquire?_eq_none_iff_full : p.acquire? = none ↔ p.activeCount = p.capacity := by
  rw [acquire?_eq_none_iff]
  exact List.countP_eq_length.symm

/-- Filling a slot in use, or the one after those in use, keeps a pool packed. -/
theorem Packed.set (packed : p.Packed) (within : slot < p.capacity) (active : a.active = true)
    (next : slot ≤ p.activeCount) : (p.set slot a).Packed := by
  intro other
  rw [get?_set within active, activeCount_set within active]
  have before := packed other
  have here := packed slot
  by_cases hit : other = slot
  · subst hit
    rw [if_pos rfl]
    split
    · rename_i used
      simpa using here.mp used
    · simpa using Nat.lt_succ_of_le next
  · rw [if_neg hit, before]
    split
    · exact Iff.rfl
    · rename_i free
      have last : slot = p.activeCount :=
        Nat.le_antisymm next (Nat.le_of_not_lt fun used => free (here.mpr used))
      rw [← last, Nat.lt_succ_iff_lt_or_eq]
      exact ⟨.inl, fun below => below.resolve_right hit⟩

end Turtle.Pool
