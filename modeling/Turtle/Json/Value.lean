import Turtle.Json.Numeral
import Turtle.Json.Text
import Turtle.Space.Vec

/-! Values of known kinds: whole numbers, numbers in single precision and triples of those. -/
namespace Turtle.Json

def readWord : List Char → Cursor → Result Cursor
  | [], c => .ok c
  | expected :: more, c =>
    match c.rest with
    | [] => refuse c.place .endInValue
    | char :: _ => if char = expected then readWord more c.eat else refuse c.ahead .expectedWord

/-- Reads what stands here instead of the wanted kind, and refuses it. A scalar is read to its end,
an array or object not at all. -/
def readMismatch {α : Type} (wanted : String) (c : Cursor) : Result α := do
  let refuseFound (found : Found) (c : Cursor) : Result α :=
    refuse c.place (.wrongKind found wanted)
  match c.rest with
  | [] => refuse c.place .endInValue
  | first :: _ =>
    if first = 'n' then
      let c ← readWord ['u', 'l', 'l'] c.eat
      refuseFound .null c
    else if first = 't' then
      let c ← readWord ['r', 'u', 'e'] c.eat
      refuseFound (.boolean true) c
    else if first = 'f' then
      let c ← readWord ['a', 'l', 's', 'e'] c.eat
      refuseFound (.boolean false) c
    else if first = '-' ∨ first.isDigit then
      let (literal, c) ← readNumber c
      refuseFound literal.found c
    else if first = '"' then
      let (text, c) ← readText c.eat
      refuseFound (.text text) c
    else if first = '[' then refuseFound .sequence c
    else if first = '{' then refuseFound .map c
    else refuse c.ahead .expectedValue

/-- A number, with nothing but its kind asked for. -/
def readLiteral (wanted : String) (c : Cursor) : Result (Literal × Cursor) :=
  let c := c.skipBlank
  match c.rest with
  | first :: _ =>
    if first = '-' ∨ first.isDigit then readNumber c else readMismatch wanted c
  | [] => readMismatch wanted c

/-- A kind of whole number: its name and the first number above it. -/
structure Width where
  name : String
  limit : Nat
  deriving DecidableEq, Repr

namespace Width

def word : Width := ⟨"u32", twoTo 32⟩

def long : Width := ⟨"u64", twoTo 64⟩

/-- Counts of things in memory. -/
def size : Width := ⟨"usize", twoTo 64⟩

end Width

def readWholeNumber (width : Width) (c : Cursor) : Result (Nat × Cursor) := do
  let (literal, c) ← readLiteral width.name c
  match literal with
  | .integer n =>
    if 0 ≤ n ∧ n < width.limit then .ok (n.toNat, c)
    else refuse c.place (.outOfRange n width.name)
  | .real x => refuse c.place (.wrongKind (.real x) width.name)

/-- An integer is rounded once, a double a second time. -/
def readSingle (c : Cursor) : Result (Single × Cursor) := do
  let (literal, c) ← readLiteral "f32" c
  match literal with
  | .integer n => .ok (.ofInt n, c)
  | .real x => .ok (x.convert, c)

/-- Moves to the next element of an array, if there is one. -/
def nextElement? (first : Bool) (c : Cursor) : Result (Option Cursor × Cursor) :=
  let c := c.skipBlank
  match c.rest with
  | [] => refuse c.place .endInList
  | ']' :: _ => .ok (none, c)
  | char :: _ =>
    if first then .ok (some c, c)
    else if char = ',' then
      let c := c.eat.skipBlank
      match c.rest with
      | [] => refuse c.place .endInValue
      | ']' :: _ => refuse c.ahead .trailingComma
      | _ => .ok (some c, c)
    else refuse c.ahead .expectedCommaOrBracket

def leaveArray (c : Cursor) : Result Cursor :=
  let c := c.skipBlank
  match c.rest with
  | [] => refuse c.place .endInList
  | ']' :: _ => .ok c.eat
  | ',' :: _ =>
    let c := c.eat.skipBlank
    match c.rest with
    | ']' :: _ => refuse c.ahead .trailingComma
    | _ => refuse c.ahead .trailingCharacters
  | _ => refuse c.ahead .trailingCharacters

def tripleName : String := "an array of length 3"

/-- One element of a triple; its absence is only reported once the array has been left. -/
def readComponent (index : Nat) (c : Cursor) : Result (Single × Cursor) := do
  let (element?, c) ← nextElement? (index == 0) c
  match element? with
  | some c => within (.element index) (readSingle c)
  | none => refuse c.eat.place (.tooFew index tripleName)

def readTriple (c : Cursor) : Result (Vec × Cursor) := do
  let c := c.skipBlank
  match c.rest with
  | '[' :: _ =>
    let (x, c) ← readComponent 0 c.eat
    let (y, c) ← readComponent 1 c
    let (z, c) ← readComponent 2 c
    let c ← leaveArray c
    .ok (⟨x, y, z⟩, c)
  | _ => readMismatch tripleName c

/-- A text that holds one triple and white space. -/
def tripleOfText (text : String) : Result Vec := do
  let (v, c) ← readTriple (.ofText text.toList)
  let c := c.skipBlank
  if c.rest = [] then .ok v else refuse c.ahead .trailingCharacters

end Turtle.Json
