import Turtle.Actor.Basic

/-! A fixed number of slots for actors.
A slot is handed out by marking its actor active; the least free slot comes first, and the number
of slots never changes. -/
namespace Turtle

abbrev Slot := Nat

structure Pool where
  slots : List Actor
  deriving DecidableEq

namespace Pool

/-- A pool of free slots. Not every capacity is one that a machine can hold: see `Fits`. -/
def ofCapacity (capacity : Nat) : Pool := ⟨List.replicate capacity .blank⟩

/-- The bytes that a slot takes: 24 for a name, 28 for a pose, 16 for a journey that there may be,
and one that says whether it is in use, filled up to whole words. -/
def slotSize : Nat := 72

/-- The bytes that one block of memory can have. -/
def blockLimit : Nat := twoTo 63 - 1

/-- Slots stand in one block of memory. -/
def Fits (capacity : Nat) : Prop := slotSize * capacity ≤ blockLimit

instance (capacity : Nat) : Decidable (Fits capacity) := inferInstanceAs (Decidable (_ ≤ _))

def capacity (p : Pool) : Nat := p.slots.length

def activeCount (p : Pool) : Nat := p.slots.countP Actor.active

/-- The actor of a slot in use. -/
def get? (p : Pool) (slot : Slot) : Option Actor := p.slots[slot]?.filter Actor.active

def set (p : Pool) (slot : Slot) (a : Actor) : Pool := ⟨p.slots.set slot a⟩

/-- Changes the actor of a slot in use; any other slot is left alone. -/
def update (p : Pool) (slot : Slot) (change : Actor → Actor) : Pool :=
  match p.get? slot with
  | some a => p.set slot (change a)
  | none => p

def acquire? (p : Pool) : Option (Slot × Pool) :=
  match p.slots.findIdx? fun a => !a.active with
  | some slot => some (slot, ⟨p.slots.modify slot Actor.activate⟩)
  | none => none

/-- Gives a slot back; false if it was not in use. -/
def release (p : Pool) (slot : Slot) : Bool × Pool :=
  match p.get? slot with
  | some a => (true, p.set slot a.retire)
  | none => (false, p)

theorem get?_eq_some_iff {p : Pool} {slot : Slot} {a : Actor} :
    p.get? slot = some a ↔ p.slots[slot]? = some a ∧ a.active = true :=
  Option.filter_eq_some_iff

theorem acquire?_eq_some {p q : Pool} {slot : Slot} (taken : p.acquire? = some (slot, q)) :
    (∃ a, p.slots[slot]? = some a ∧ a.active = false) ∧
      (∀ other < slot, ∃ a, p.slots[other]? = some a ∧ a.active = true) ∧
      q = ⟨p.slots.modify slot Actor.activate⟩ := by
  unfold acquire? at taken
  split at taken
  · rename_i index found
    obtain ⟨rfl, rfl⟩ := Prod.mk.inj (Option.some.inj taken)
    obtain ⟨within, free, least⟩ := List.findIdx?_eq_some_iff_getElem.mp found
    refine ⟨⟨p.slots[index], List.getElem?_eq_getElem within, by simpa using free⟩, ?_, rfl⟩
    intro other below
    have inside : other < p.slots.length := Nat.lt_trans below within
    exact ⟨p.slots[other], List.getElem?_eq_getElem inside, by simpa using least other below⟩
  · contradiction

theorem acquire?_eq_none_iff {p : Pool} :
    p.acquire? = none ↔ ∀ a ∈ p.slots, a.active = true := by
  unfold acquire?
  split
  · rename_i index found
    obtain ⟨within, free, _⟩ := List.findIdx?_eq_some_iff_getElem.mp found
    constructor
    · intro impossible
      cases impossible
    · intro all
      have busy := all p.slots[index] (List.getElem_mem within)
      simp [busy] at free
  · rename_i missing
    simpa using missing

@[simp] theorem capacity_ofCapacity (n : Nat) : (ofCapacity n).capacity = n := by
  simp [ofCapacity, capacity]

@[simp] theorem capacity_set (p : Pool) (slot : Slot) (a : Actor) :
    (p.set slot a).capacity = p.capacity := by
  simp [set, capacity]

end Pool
end Turtle
