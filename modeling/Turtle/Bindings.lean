/-! Names bound to values, the last binding of a name being the one that counts.
A name that is bound again keeps its place, so there is one entry for each bound name. -/
namespace Turtle

structure Bindings (α : Type) where
  entries : List (String × α)
  deriving DecidableEq

namespace Bindings

variable {α : Type}

def empty : Bindings α := ⟨[]⟩

def lookup (name : String) : List (String × α) → Option α
  | [] => none
  | (other, value) :: rest => if name = other then some value else lookup name rest

def put (name : String) (value : α) : List (String × α) → List (String × α)
  | [] => [(name, value)]
  | (other, old) :: rest =>
    if name = other then (name, value) :: rest else (other, old) :: put name value rest

def find? (b : Bindings α) (name : String) : Option α := lookup name b.entries

def bind (b : Bindings α) (name : String) (value : α) : Bindings α := ⟨put name value b.entries⟩

def size (b : Bindings α) : Nat := b.entries.length

@[simp] theorem find?_empty (name : String) : (empty : Bindings α).find? name = none := rfl

theorem lookup_put (name other : String) (value : α) (entries : List (String × α)) :
    lookup other (put name value entries)
      = if other = name then some value else lookup other entries := by
  induction entries with
  | nil => rfl
  | cons entry rest ih =>
    obtain ⟨key, old⟩ := entry
    by_cases hit : name = key
    · subst hit
      by_cases h : other = name <;> simp [put, lookup, h]
    · by_cases h : other = key
      · subst h
        simp [put, hit, lookup, Ne.symm hit]
      · simp [put, hit, lookup, h, ih]

@[simp] theorem find?_bind (b : Bindings α) (name other : String) (value : α) :
    (b.bind name value).find? other = if other = name then some value else b.find? other :=
  lookup_put name other value b.entries

theorem length_put (name : String) (value : α) (entries : List (String × α)) :
    (put name value entries).length
      = if (lookup name entries).isSome then entries.length else entries.length + 1 := by
  induction entries with
  | nil => rfl
  | cons entry rest ih =>
    obtain ⟨key, old⟩ := entry
    by_cases hit : name = key
    · simp [put, lookup, hit]
    · simp only [put, lookup, if_neg hit, List.length_cons, ih]
      split <;> rfl

theorem size_bind (b : Bindings α) (name : String) (value : α) :
    (b.bind name value).size = if (b.find? name).isSome then b.size else b.size + 1 :=
  length_put name value b.entries

end Bindings
end Turtle
