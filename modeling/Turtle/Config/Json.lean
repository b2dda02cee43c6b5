import Turtle.Config.Basic
import Turtle.Json.Value

/-! A configuration in JSON text: an object with some of the fields, or an array with the values of
the first ones. What follows the value is not looked at. -/
namespace Turtle.Config

open Turtle.Json

def kindName : String := "struct TurtleConfig"

def readField : Field → Cursor → Result (Assignment × Cursor)
  | .poolCapacity, c => do let (n, c) ← readWholeNumber .size c; .ok (.poolCapacity n, c)
  | .moveSpeed, c => do let (speed, c) ← readSingle c; .ok (.moveSpeed speed, c)
  | .spawnPosition, c => do let (position, c) ← readTriple c; .ok (.spawnPosition position, c)
  | .targetRate, c => do let (n, c) ← readWholeNumber .word c; .ok (.targetRate n, c)
  | .maxFrameMillis, c => do let (n, c) ← readWholeNumber .long c; .ok (.maxFrameMillis n, c)
  | .maxTicksPerFrame, c => do let (n, c) ← readWholeNumber .word c; .ok (.maxTicksPerFrame n, c)
  | .reportMillis, c => do let (n, c) ← readWholeNumber .long c; .ok (.reportMillis n, c)

/-- The values of an array, for the given fields and as far as there are any. -/
def readElements (index : Nat) : List Field → Cursor → Result (List Assignment × Cursor)
  | [], c => .ok ([], c)
  | field :: fields, c => do
    let (element?, c) ← nextElement? (index == 0) c
    match element? with
    | none => .ok ([], c)
    | some c =>
      let (assignment, c) ← within (.element index) (readField field c)
      let (more, c) ← readElements (index + 1) fields c
      .ok (assignment :: more, c)

/-- The name of the next member of an object, if there is one. -/
def nextName? (first : Bool) (c : Cursor) : Result (Option (String × Cursor)) :=
  let c := c.skipBlank
  let readName (c : Cursor) : Result (Option (String × Cursor)) := do
    let found ← readText c.eat
    .ok (some found)
  match c.rest with
  | [] => refuse c.place .endInObject
  | char :: _ =>
    if char = '}' then .ok none
    else if first then if char = '"' then readName c else refuse c.ahead .keyNotText
    else if char = ',' then
      let c := c.eat.skipBlank
      match c.rest with
      | [] => refuse c.place .endInValue
      | '"' :: _ => readName c
      | '}' :: _ => refuse c.ahead .trailingComma
      | _ => refuse c.ahead .keyNotText
    else refuse c.ahead .expectedCommaOrBrace

/-- Where a member is refused by its name: the object is left first, as far as it can be. -/
def placeOfRefusal (c : Cursor) : Place :=
  let c := c.skipBlank
  match c.rest with
  | '}' :: _ => c.eat.place
  | _ => c.place

def readColon (c : Cursor) : Result Cursor :=
  let c := c.skipBlank
  match c.rest with
  | [] => refuse c.place .endInObject
  | ':' :: _ => .ok c.eat
  | _ => refuse c.ahead .expectedColon

/-- The next member of an object of which some are given already. A name is judged before its value
is read. -/
def readMember (given : List Assignment) (c : Cursor) : Result (Option (Assignment × Cursor)) := do
  match ← within .unnamed (nextName? given.isEmpty c) with
  | none => .ok none
  | some (name, c) =>
    match Field.ofName? name with
    | none =>
      within (.member name)
        (refuse (placeOfRefusal c) (.unknownField name (Field.all.map Field.name)))
    | some field =>
      if field ∈ given.map Assignment.field then refuse (placeOfRefusal c) (.duplicateField name)
      else
        let c ← readColon c
        let member ← within (.member name) (readField field c)
        .ok (some member)

/-- The members of an object. No field is given twice, so one round more than there are fields is
enough. -/
def readMembers : (rounds : Nat) → (given : List Assignment) → Cursor → Result (List Assignment)
  | 0, given, _ => .ok given
  | rounds + 1, given, c => do
    match ← readMember given c with
    | none => .ok given
    | some (assignment, c) => readMembers rounds (given ++ [assignment]) c

def assignmentsOfJson (text : List Char) : Result (List Assignment) := do
  let c := (Cursor.ofText text).skipBlank
  match c.rest with
  | '[' :: _ =>
    let (assignments, c) ← readElements 0 Field.all c.eat
    let _ ← leaveArray c
    .ok assignments
  | '{' :: _ => readMembers (Field.all.length + 1) [] c.eat
  | _ => readMismatch kindName c

def ofJson (text : List Char) : Result Config := do
  let assignments ← assignmentsOfJson text
  .ok (standard.assignAll assignments)

end Turtle.Config
