/-! White space, as Unicode's White_Space property has it, and its removal. -/
namespace Turtle.Text

def isBlank (c : Char) : Bool :=
  let code := c.toNat
  (0x9 ≤ code && code ≤ 0xD) || code == 0x20 || code == 0x85 || code == 0xA0 || code == 0x1680 ||
    (0x2000 ≤ code && code ≤ 0x200A) || code == 0x2028 || code == 0x2029 || code == 0x202F ||
    code == 0x205F || code == 0x3000

def trim (text : List Char) : List Char :=
  ((text.dropWhile isBlank).reverse.dropWhile isBlank).reverse

def compact (text : List Char) : List Char := text.filter fun c => !isBlank c

def isAllBlank (text : List Char) : Bool := text.all isBlank

theorem compact_eq_nil_iff (text : List Char) : compact text = [] ↔ isAllBlank text = true := by
  simp [compact, isAllBlank, List.filter_eq_nil_iff]

end Turtle.Text
