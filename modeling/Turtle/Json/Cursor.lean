/-! Places in a JSON text. Lines are counted from one and end with a line feed; a column counts the
bytes of its line up to and including the last one read. -/
namespace Turtle.Json

structure Place where
  line : Nat
  column : Nat
  deriving DecidableEq, Repr

namespace Place

def start : Place := ⟨1, 0⟩

def past (p : Place) (c : Char) : Place :=
  if c = '\n' then ⟨p.line + 1, 0⟩ else ⟨p.line, p.column + c.utf8Size⟩

/-- The place after the first byte of what follows. -/
def ahead (p : Place) : List Char → Place
  | [] => p
  | '\n' :: _ => ⟨p.line + 1, 0⟩
  | _ => ⟨p.line, p.column + 1⟩

/-- The place a number of bytes further on, if the text goes on for as many. -/
def advance? (p : Place) : (bytes : Nat) → List Char → Option Place
  | 0, _ => some p
  | _ + 1, [] => none
  | bytes + 1, c :: rest =>
    if c.utf8Size ≤ bytes + 1 then (p.past c).advance? (bytes + 1 - c.utf8Size) rest
    else some ⟨p.line, p.column + bytes + 1⟩

end Place

/-- What is left of a text, and the place of the last byte before it. -/
structure Cursor where
  rest : List Char
  place : Place
  deriving DecidableEq, Repr

namespace Cursor

def ofText (text : List Char) : Cursor := ⟨text, .start⟩

/-- Where a fault lies that the next byte is to blame for. -/
def ahead (c : Cursor) : Place := c.place.ahead c.rest

def eat (c : Cursor) : Cursor :=
  match c.rest with
  | [] => c
  | first :: rest => ⟨rest, c.place.past first⟩

def finish (c : Cursor) : Cursor := ⟨[], c.rest.foldl Place.past c.place⟩

def isBlank (c : Char) : Bool := c = ' ' || c = '\n' || c = '\t' || c = '\r'

def skipBlankFrom : List Char → Place → Cursor
  | [], place => ⟨[], place⟩
  | c :: rest, place => if isBlank c then skipBlankFrom rest (place.past c) else ⟨c :: rest, place⟩

/-- Past the white space of JSON. -/
def skipBlank (c : Cursor) : Cursor := skipBlankFrom c.rest c.place

/-- The digits that come next, and the cursor after them. -/
def digits (c : Cursor) : List Char × Cursor :=
  let (found, rest) := c.rest.span Char.isDigit
  (found, ⟨rest, ⟨c.place.line, c.place.column + found.length⟩⟩)

end Cursor
end Turtle.Json
