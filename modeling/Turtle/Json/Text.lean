import Turtle.Json.Fault

/-! Strings of JSON text: characters up to the closing quote, with backslash escapes. -/
namespace Turtle.Json

def hexValue? (c : Char) : Option Nat :=
  if c.isDigit then some (c.toNat - '0'.toNat)
  else if 'a' ≤ c ∧ c ≤ 'f' then some (c.toNat - 'a'.toNat + 10)
  else if 'A' ≤ c ∧ c ≤ 'F' then some (c.toNat - 'A'.toNat + 10)
  else none

/-- Four hexadecimal digits. An escape takes four bytes, whatever they are, before it is judged. -/
def readUnit (c : Cursor) : Result (Nat × Cursor) :=
  match c.place.advance? 4 c.rest with
  | none => refuse c.finish.place .endInText
  | some after =>
    match (c.rest.take 4).mapM hexValue? with
    | some digits => .ok (digits.foldl (fun value digit => 16 * value + digit) 0,
        ⟨c.rest.drop 4, after⟩)
    | none => refuse after .invalidEscape

/-- The next character of a string, which has to be the given one. -/
def readMark (mark : Char) (c : Cursor) : Result Cursor :=
  match c.rest with
  | [] => refuse c.place .endInText
  | found :: _ => if found = mark then .ok c.eat else refuse c.ahead .unfinishedEscape

def isLeading (unit : Nat) : Bool := 0xD800 ≤ unit && unit < 0xDC00

def isTrailing (unit : Nat) : Bool := 0xDC00 ≤ unit && unit < 0xE000

/-- The character of a `\u` escape: one unit, or a leading and a trailing surrogate. -/
def readCodePoint (c : Cursor) : Result (Char × Cursor) := do
  let (unit, c) ← readUnit c
  if isTrailing unit then refuse c.place .loneSurrogate
  else if isLeading unit then
    let c ← readMark '\\' c
    let c ← readMark 'u' c
    let (second, c) ← readUnit c
    if isTrailing second then
      .ok (Char.ofNat ((unit - 0xD800) * 0x400 + (second - 0xDC00) + 0x10000), c)
    else refuse c.place .loneSurrogate
  else .ok (Char.ofNat unit, c)

/-- The character an escape stands for, after its backslash. -/
def readEscape (c : Cursor) : Result (Char × Cursor) :=
  match c.rest with
  | [] => refuse c.place .endInText
  | '"' :: _ => .ok ('"', c.eat)
  | '\\' :: _ => .ok ('\\', c.eat)
  | '/' :: _ => .ok ('/', c.eat)
  | 'b' :: _ => .ok ('\x08', c.eat)
  | 'f' :: _ => .ok ('\x0c', c.eat)
  | 'n' :: _ => .ok ('\n', c.eat)
  | 'r' :: _ => .ok ('\r', c.eat)
  | 't' :: _ => .ok ('\t', c.eat)
  | 'u' :: _ => readCodePoint c.eat
  | _ => refuse c.ahead .invalidEscape

/-- The rest of a string whose last characters, latest first, are `before`. Every round takes a
character, so as many rounds as characters are enough. -/
def readTextFrom : (rounds : Nat) → (before : List Char) → Cursor → Result (String × Cursor)
  | 0, _, c => refuse c.place .endInText
  | rounds + 1, before, c =>
    match c.rest with
    | [] => refuse c.place .endInText
    | '"' :: _ => .ok (.ofList before.reverse, c.eat)
    | '\\' :: _ => do
      let (char, c) ← readEscape c.eat
      readTextFrom rounds (char :: before) c
    | char :: _ =>
      if char.toNat < 0x20 then refuse c.ahead .controlCharacter
      else readTextFrom rounds (char :: before) c.eat

def readText (c : Cursor) : Result (String × Cursor) := readTextFrom c.rest.length [] c

end Turtle.Json
