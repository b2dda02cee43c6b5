/-! Powers of the two bases in which numbers are held and written. -/
namespace Turtle

def twoTo (n : Nat) : Nat := 1 <<< n

def tenTo (n : Nat) : Nat := Nat.pow 10 n

theorem twoTo_eq_pow (n : Nat) : twoTo n = Nat.pow 2 n := Nat.one_shiftLeft n

theorem twoTo_succ (n : Nat) : twoTo (n + 1) = 2 * twoTo n := by
  rw [twoTo_eq_pow, twoTo_eq_pow]
  exact Nat.pow_succ'

theorem twoTo_pos (n : Nat) : 0 < twoTo n := by
  rw [twoTo_eq_pow]
  exact Nat.two_pow_pos n

theorem tenTo_succ (n : Nat) : tenTo (n + 1) = 10 * tenTo n := Nat.pow_succ'

theorem tenTo_pos (n : Nat) : 0 < tenTo n := Nat.pow_pos (by decide)

end Turtle
