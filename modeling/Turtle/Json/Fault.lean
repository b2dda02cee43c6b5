import Turtle.Decimal.Layout
import Turtle.Json.Cursor
import Turtle.Text.Quoted

/-! What can be wrong with a JSON text that should hold values of known kinds. -/
namespace Turtle.Json

/-- A value that stands where another kind is wanted. -/
inductive Found where
  | integer (n : Int)
  | real (x : Double)
  | boolean (b : Bool)
  | text (s : String)
  | null
  | sequence
  | map
  deriving DecidableEq

def Found.describe : Found → String
  | integer n => "integer `" ++ toString n ++ "`"
  | real x => "floating point `" ++ x.written .jsonDouble ++ "`"
  | boolean b => "boolean `" ++ (if b then "true" else "false") ++ "`"
  | text s => "string " ++ Text.quoted s
  | null => "null"
  | sequence => "sequence"
  | map => "map"

inductive Problem where
  | wrongKind (found : Found) (wanted : String)
  | outOfRange (n : Int) (wanted : String)
  | tooFew (count : Nat) (wanted : String)
  | duplicateField (name : String)
  | unknownField (name : String) (known : List String)
  | expectedValue
  | expectedWord
  | invalidNumber
  | numberOutOfRange
  | expectedColon
  | expectedCommaOrBrace
  | expectedCommaOrBracket
  | keyNotText
  | trailingComma
  | trailingCharacters
  | invalidEscape
  | loneSurrogate
  | unfinishedEscape
  | controlCharacter
  | endInValue
  | endInObject
  | endInList
  | endInText
  deriving DecidableEq

def Problem.describe : Problem → String
  | wrongKind found wanted => "invalid type: " ++ found.describe ++ ", expected " ++ wanted
  | outOfRange n wanted =>
    "invalid value: " ++ (Found.integer n).describe ++ ", expected " ++ wanted
  | tooFew count wanted => "invalid length " ++ toString count ++ ", expected " ++ wanted
  | duplicateField name => "duplicate field `" ++ name ++ "`"
  | unknownField name known =>
    "unknown field `" ++ name ++ "`, expected one of " ++
      String.intercalate ", " (known.map fun field => "`" ++ field ++ "`")
  | expectedValue => "expected value"
  | expectedWord => "expected ident"
  | invalidNumber => "invalid number"
  | numberOutOfRange => "number out of range"
  | expectedColon => "expected `:`"
  | expectedCommaOrBrace => "expected `,` or `\x7d`"
  | expectedCommaOrBracket => "expected `,` or `]`"
  | keyNotText => "key must be a string"
  | trailingComma => "trailing comma"
  | trailingCharacters => "trailing characters"
  | invalidEscape => "invalid escape"
  | loneSurrogate => "lone leading surrogate in hex escape"
  | unfinishedEscape => "unexpected end of hex escape"
  | controlCharacter => "control character (\\u0000-\\u001F) found while parsing a string"
  | endInValue => "EOF while parsing a value"
  | endInObject => "EOF while parsing an object"
  | endInList => "EOF while parsing a list"
  | endInText => "EOF while parsing a string"

/-- A step on the way from the whole value down to a part. -/
inductive Step where
  | member (name : String)
  | element (index : Nat)
  /-- A member whose name could not be read. -/
  | unnamed
  deriving DecidableEq, Repr

/-- A path as text. Names are set off by points and indices stand in brackets. -/
def pathText : List Step → String
  | [] => ""
  | .element index :: rest => "[" ++ toString index ++ "]" ++ more rest
  | .member name :: rest => name ++ more rest
  | .unnamed :: rest => "?" ++ more rest
where
  more : List Step → String
    | [] => ""
    | .element index :: rest => "[" ++ toString index ++ "]" ++ more rest
    | .member name :: rest => "." ++ name ++ more rest
    | .unnamed :: rest => ".?" ++ more rest

structure Fault where
  problem : Problem
  place : Place
  path : List Step
  deriving DecidableEq

namespace Fault

def ofProblem (place : Place) (problem : Problem) : Fault := ⟨problem, place, []⟩

/-- The fault as seen from one step further out. -/
def under (step : Step) (fault : Fault) : Fault := { fault with path := step :: fault.path }

def describe (fault : Fault) : String :=
  fault.problem.describe ++ " at line " ++ toString fault.place.line ++ " column " ++
    toString fault.place.column

/-- The report with its location in front, where a location can be told from a bare point. -/
def locate (fault : Fault) : String :=
  let location := pathText fault.path
  if location = "" ∨ location = "." then fault.describe
  else "at " ++ location ++ ": " ++ fault.describe

end Fault

abbrev Result (α : Type) := Except Fault α

/-- Reads a part of a value; a fault inside it gets the step that leads there. -/
def within {α : Type} (step : Step) : Result α → Result α
  | .ok a => .ok a
  | .error fault => .error (fault.under step)

def refuse {α : Type} (place : Place) (problem : Problem) : Result α :=
  .error (.ofProblem place problem)

end Turtle.Json
