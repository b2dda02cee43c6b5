import Mathlib.Data.Finset.Erase
import Mathlib.Data.Finset.Insert
import Mathlib.Order.Bounds.Defs
import Turtle.Proofs.Outcomes

/-! A pool as a set of free slots.
Whoever acquires and releases slots can keep a record of those that are held. The record alone
decides what the pool answers, whatever is done to the actors of the slots in between, and a slot
that is handed out again is at rest, however its last actor left it. -/
namespace Turtle

/-- What can be done to an actor by whoever holds its slot. -/
inductive Deed where
  | place (name : String) (pose : Pose)
  | setOff (distance speed : Single)
  | face (rotation : Rotation)
  | step (dt : Single)

def Actor.undergo (a : Actor) : Deed → Actor
  | .place name pose => a.place name pose
  | .setOff distance speed => a.setOff distance speed
  | .face rotation => a.face rotation
  | .step dt => (a.step dt).1

theorem Actor.undergo_active (a : Actor) (deed : Deed) :
    (a.undergo deed).active = a.active := by
  cases deed with
  | place name pose => rfl
  | setOff distance speed => rfl
  | face rotation => rfl
  | step dt => exact a.step_active dt

namespace Pool

variable {p : Pool} {slot : Slot} {a : Actor}

theorem update_of_not_held (free : p.get? slot = none) (change : Actor → Actor) :
    p.update slot change = p := by
  simp only [update, free]

theorem release_of_get? (found : p.get? slot = some a) :
    p.release slot = (true, p.set slot a.retire) := by
  simp only [release, found]

theorem release_of_not_held (free : p.get? slot = none) : p.release slot = (false, p) := by
  simp only [release, free]

theorem isSome_get?_set (within : slot < p.capacity) (a : Actor) (other : Slot) :
    ((p.set slot a).get? other).isSome = if other = slot then a.active else (p.get? other).isSome := by
  unfold get?
  rw [getElem?_set within]
  split
  · cases active : a.active with
    | true => exact congrArg Option.isSome (Option.filter_some_pos active)
    | false => exact congrArg Option.isSome (Option.filter_some_neg (by simp [active]))
  · rfl

theorem activeCount_set_retire (found : p.get? slot = some a) :
    (p.set slot a.retire).activeCount + 1 = p.activeCount := by
  obtain ⟨here, active⟩ := get?_eq_some_iff.mp found
  obtain ⟨inside, rfl⟩ := List.getElem?_eq_some_iff.mp here
  have counted := List.countP_set (p := Actor.active) (a := p.slots[slot].retire) inside
  have positive : 0 < p.activeCount :=
    List.countP_pos_iff.mpr ⟨_, List.getElem_mem inside, active⟩
  simp only [active, if_true, Actor.retire, Bool.false_eq_true, if_false, Nat.add_zero] at counted
  exact (congrArg (· + 1) counted).trans (Nat.sub_add_cancel positive)

end Pool

/-- What is asked of a pool. -/
inductive Demand where
  | acquire
  | release (slot : Slot)
  /-- Does something to the actor of a slot, if the slot is in use. -/
  | change (slot : Slot) (deed : Deed)

/-- A pool with the record of its use: the slots that were handed out and not given back since, and
how many were handed out and taken back in all. -/
structure Tenancy where
  pool : Pool
  held : Finset Slot
  acquired : Nat
  released : Nat

namespace Tenancy

def ofCapacity (capacity : Nat) : Tenancy := ⟨.ofCapacity capacity, ∅, 0, 0⟩

def meet (t : Tenancy) : Demand → Tenancy
  | .acquire =>
    match t.pool.acquire? with
    | some (slot, pool) =>
      { t with pool := pool, held := insert slot t.held, acquired := t.acquired + 1 }
    | none => t
  | .release slot =>
    let (done, pool) := t.pool.release slot
    { t with
      pool := pool
      held := t.held.erase slot
      released := if done then t.released + 1 else t.released }
  | .change slot deed => { t with pool := t.pool.update slot fun a => a.undergo deed }

def meetAll (t : Tenancy) (demands : List Demand) : Tenancy := demands.foldl meet t

/-- The record agrees with the pool, and no actor out of use is on a journey. -/
structure Agrees (t : Tenancy) (capacity : Nat) : Prop where
  capacity : t.pool.capacity = capacity
  held : ∀ slot, slot ∈ t.held ↔ (t.pool.get? slot).isSome = true
  counted : t.pool.activeCount + t.released = t.acquired
  atRest : ∀ (slot : Slot) (a : Actor), t.pool.slots[slot]? = some a → a.active = false →
    a.journey = none

variable {t : Tenancy} {capacity : Nat} {slot : Slot}

theorem agrees_ofCapacity (capacity : Nat) : (ofCapacity capacity).Agrees capacity where
  capacity := Pool.capacity_ofCapacity capacity
  held slot := by simp [ofCapacity]
  counted := Pool.activeCount_ofCapacity capacity
  atRest slot a here _ := by
    cases List.eq_of_mem_replicate (List.mem_of_getElem? here)
    rfl

theorem Agrees.get?_eq_none (agrees : t.Agrees capacity) (free : slot ∉ t.held) :
    t.pool.get? slot = none :=
  Option.not_isSome_iff_eq_none.mp fun used => free ((agrees.held slot).mpr used)

/-- Whatever a slot is filled with, the record has to follow only in that slot. -/
theorem Agrees.refill (agrees : t.Agrees capacity) (within : slot < t.pool.capacity) {a : Actor}
    (rests : a.active = false → a.journey = none) {held : Finset Slot} {acquired released : Nat}
    (follows : ∀ other, other ∈ held ↔ if other = slot then a.active = true else other ∈ t.held)
    (counted : (t.pool.set slot a).activeCount + released = acquired) :
    Agrees ⟨t.pool.set slot a, held, acquired, released⟩ capacity where
  capacity := (Pool.capacity_set _ _ _).trans agrees.capacity
  held other := by
    rw [follows, Pool.isSome_get?_set within, agrees.held]
    split <;> exact Iff.rfl
  counted := counted
  atRest other b there unused := by
    rw [Pool.getElem?_set within] at there
    split at there
    · cases there
      exact rests unused
    · exact agrees.atRest other b there unused

theorem Agrees.acquire (agrees : t.Agrees capacity) : (t.meet .acquire).Agrees capacity := by
  cases taken : t.pool.acquire? with
  | none =>
    simp only [meet, taken]
    exact agrees
  | some granted =>
    obtain ⟨slot, pool⟩ := granted
    obtain ⟨old, here, idle, rfl⟩ := Pool.acquire?_eq_set taken
    simp only [meet, taken]
    have within : slot < t.pool.capacity := (List.getElem?_eq_some_iff.mp here).1
    have more := Pool.activeCount_set (a := old.activate) within rfl
    rw [Pool.get?_of_inactive here idle] at more
    refine agrees.refill within (fun unused => absurd rfl (Bool.eq_false_iff.mp unused)) ?_ ?_
    · intro other
      by_cases same : other = slot <;> simp [same, Actor.activate]
    · have counted := agrees.counted
      simp only [Option.isSome_none, Bool.false_eq_true, if_false] at more
      omega

theorem Agrees.release (agrees : t.Agrees capacity) (slot : Slot) :
    (t.meet (.release slot)).Agrees capacity := by
  cases found : t.pool.get? slot with
  | none =>
    have free : slot ∉ t.held := by simp [agrees.held, found]
    simp only [meet, Pool.release_of_not_held found, Finset.erase_eq_of_notMem free, Bool.false_eq_true,
      if_false]
    exact agrees
  | some a =>
    simp only [meet, Pool.release_of_get? found, if_true]
    refine agrees.refill (Pool.lt_capacity_of_get? found) (fun _ => rfl) ?_ ?_
    · intro other
      by_cases same : other = slot <;> simp [same, Actor.retire]
    · have fewer := Pool.activeCount_set_retire found
      have counted := agrees.counted
      omega

theorem Agrees.change (agrees : t.Agrees capacity) (slot : Slot) (deed : Deed) :
    (t.meet (.change slot deed)).Agrees capacity := by
  cases found : t.pool.get? slot with
  | none =>
    simp only [meet, Pool.update_of_not_held found]
    exact agrees
  | some a =>
    have within := Pool.lt_capacity_of_get? found
    have active : (a.undergo deed).active = true :=
      (a.undergo_active deed).trans (Pool.active_of_get? found)
    have same := Pool.activeCount_set within active
    simp only [meet, Pool.update_of_get? found]
    refine agrees.refill within (fun unused => ?_) ?_ ?_
    · cases active.symm.trans unused
    · intro other
      by_cases same : other = slot <;> simp [same, active, agrees.held, found]
    · rw [found] at same
      exact (congrArg (· + t.released) same).trans agrees.counted

theorem Agrees.meet (agrees : t.Agrees capacity) (demand : Demand) :
    (t.meet demand).Agrees capacity := by
  cases demand with
  | acquire => exact agrees.acquire
  | release slot => exact agrees.release slot
  | change slot deed => exact agrees.change slot deed

theorem Agrees.meetAll (agrees : t.Agrees capacity) (demands : List Demand) :
    (t.meetAll demands).Agrees capacity := by
  induction demands generalizing t with
  | nil => exact agrees
  | cons demand demands ih => exact ih (agrees.meet demand)

/-- How a pool answers by the record of its use. -/
structure Serves (t : Tenancy) (capacity : Nat) : Prop where
  fixed : t.pool.capacity = capacity
  active : ∀ slot, (∃ a, t.pool.slots[slot]? = some a ∧ a.active = true) ↔ slot ∈ t.held
  get : ∀ slot, (t.pool.get? slot).isSome = true ↔ slot ∈ t.held
  reach : ∀ slot ∈ t.held, ∃ a, t.pool.get? slot = some a ∧
    ∀ change, t.pool.update slot change = t.pool.set slot (change a)
  miss : ∀ slot, slot ∉ t.held → ∀ change, t.pool.update slot change = t.pool
  grant : ∀ slot pool, t.pool.acquire? = some (slot, pool) →
    IsLeast {free | free < capacity ∧ free ∉ t.held} slot ∧
      ∃ a, pool.get? slot = some a ∧ a.isMoving = false
  exhaust : t.pool.acquire? = none ↔ ∀ slot < capacity, slot ∈ t.held
  release : ∀ slot, (t.pool.release slot).1 = true ↔ slot ∈ t.held
  refuse : ∀ slot, slot ∉ t.held → (t.pool.release slot).2 = t.pool
  counted : t.pool.activeCount + t.released = t.acquired
  atRest : ∀ a ∈ t.pool.slots, a.active = false → a.isMoving = false

theorem Agrees.grant (agrees : t.Agrees capacity) {pool : Pool}
    (taken : t.pool.acquire? = some (slot, pool)) :
    IsLeast {free | free < capacity ∧ free ∉ t.held} slot ∧
      ∃ a, pool.get? slot = some a ∧ a.isMoving = false := by
  obtain ⟨_, before, _⟩ := Pool.acquire?_eq_some taken
  obtain ⟨old, here, idle, rfl⟩ := Pool.acquire?_eq_set taken
  have within : slot < t.pool.capacity := (List.getElem?_eq_some_iff.mp here).1
  refine ⟨⟨⟨?_, ?_⟩, ?_⟩, old.activate, ?_, ?_⟩
  · exact agrees.capacity ▸ within
  · simp [agrees.held, Pool.get?_of_inactive here idle]
  · rintro free ⟨_, unheld⟩
    apply Nat.le_of_not_lt
    intro below
    obtain ⟨a, there, active⟩ := before free below
    apply unheld
    rw [agrees.held, Pool.get?_eq_some_iff.mpr ⟨there, active⟩]
    rfl
  · exact Pool.get?_set_self within rfl
  · exact congrArg Option.isSome (agrees.atRest slot old here idle)

theorem Agrees.exhaust (agrees : t.Agrees capacity) :
    t.pool.acquire? = none ↔ ∀ slot < capacity, slot ∈ t.held := by
  rw [Pool.acquire?_eq_none_iff]
  constructor
  · intro all slot below
    have inside : slot < t.pool.capacity := Nat.lt_of_lt_of_eq below agrees.capacity.symm
    have here := List.getElem?_eq_getElem inside
    have active := all _ (List.getElem_mem inside)
    rw [agrees.held, Pool.get?_eq_some_iff.mpr ⟨here, active⟩]
    rfl
  · intro all a member
    obtain ⟨slot, here⟩ := List.getElem?_of_mem member
    have inside := (List.getElem?_eq_some_iff.mp here).1
    have used := (agrees.held slot).mp (all slot (agrees.capacity ▸ inside))
    obtain ⟨b, found⟩ := Option.isSome_iff_exists.mp used
    obtain ⟨there, active⟩ := Pool.get?_eq_some_iff.mp found
    cases here.symm.trans there
    exact active

theorem Agrees.serves (agrees : t.Agrees capacity) : t.Serves capacity where
  fixed := agrees.capacity
  active slot := by
    rw [agrees.held, Option.isSome_iff_exists]
    simp only [Pool.get?_eq_some_iff]
  get slot := (agrees.held slot).symm
  reach slot member := by
    obtain ⟨a, found⟩ := Option.isSome_iff_exists.mp ((agrees.held slot).mp member)
    exact ⟨a, found, fun change => Pool.update_of_get? found change⟩
  miss slot free change := Pool.update_of_not_held (agrees.get?_eq_none free) change
  grant slot pool taken := agrees.grant taken
  exhaust := agrees.exhaust
  release slot := by
    rw [agrees.held]
    cases found : t.pool.get? slot with
    | none => simp [Pool.release_of_not_held found]
    | some a => simp [Pool.release_of_get? found]
  refuse slot free := by rw [Pool.release_of_not_held (agrees.get?_eq_none free)]
  counted := agrees.counted
  atRest a member idle := by
    obtain ⟨slot, here⟩ := List.getElem?_of_mem member
    exact congrArg Option.isSome (agrees.atRest slot a here idle)

/-- Whatever is asked of a pool, in whatever order, it goes on answering by the record of its use. -/
theorem serves_meetAll (capacity : Nat) (demands : List Demand) :
    ((ofCapacity capacity).meetAll demands).Serves capacity :=
  ((agrees_ofCapacity capacity).meetAll demands).serves

/-- An actor is retired in the middle of a journey, and its slot is handed out again before others. -/
example :
    let t := (ofCapacity 3).meetAll
      [.acquire, .acquire, .change 0 (.setOff 2 1), .change 0 (.step 1), .release 0, .release 7]
    let again := t.meet .acquire
    t.held = {1} ∧ again.held = {0, 1} ∧ (again.pool.get? 0).map Actor.isMoving = some false := by
  decide +kernel

end Tenancy
end Turtle
