import Turtle.Config.Json
import Turtle.Files
import Turtle.Text.Blank

/-! Where a configuration comes from: the standard one, then a JSON file if the environment names
one, then fields that the environment sets. -/
namespace Turtle

abbrev Environment := String → Option Text.Bytes

namespace Config

def fileVariable : String := "TURTLE_CONFIG"

inductive LoadFault where
  /-- A variable whose value is not UTF-8. -/
  | notUnicode (name : String) (value : Text.Bytes)
  | unreadable (path : String) (fault : ReadFault)
  | malformed (path : String) (fault : Json.Fault)
  | invalid (fault : Invalid)
  deriving DecidableEq

def LoadFault.message : LoadFault → String
  | notUnicode name value =>
    "failed to read environment variable " ++ name ++
      ": environment variable was not valid unicode: " ++ Text.quotedPieces (Text.pieces value)
  | unreadable path fault => "failed to read config file " ++ path ++ ": " ++ fault.message
  | malformed path fault => "failed to parse config file " ++ path ++ ": " ++ fault.locate
  | invalid fault => "invalid config value for " ++ fault.field.name ++ ": " ++ fault.reason

def readVariable (environment : Environment) (name : String) :
    Except LoadFault (Option (List Char)) :=
  match environment name with
  | none => .ok none
  | some value =>
    match Text.decode? value with
    | some text => .ok (some text)
    | none => .error (.notUnicode name value)

/-- A field that the environment can set: the variable, and how its trimmed text is read. -/
structure Override where
  name : String
  read? : List Char → Option Assignment

/-- The fields that the environment can set, in the order in which they are looked up. -/
def overrides : List Override :=
  [⟨"TURTLE_POOL_CAPACITY", fun text => (wholeOfText? (twoTo 64) text).map .poolCapacity⟩,
    ⟨"TURTLE_MOVE_SPEED", fun text => (Number.ofText? text).map .moveSpeed⟩,
    ⟨"TURTLE_TARGET_TPS", fun text => (wholeOfText? (twoTo 32) text).map .targetRate⟩]

/-- Sets a field from the environment. A text that cannot be read leaves the field as it is. -/
def applyOverride (environment : Environment) (c : Config) (o : Override) :
    Except LoadFault Config := do
  match ← readVariable environment o.name with
  | none => .ok c
  | some text =>
    match o.read? (Text.trim text) with
    | some assignment => .ok (c.assign assignment)
    | none => .ok c

/-- Sets fields until a variable cannot be read, with the fault that stopped it, if any. -/
def applyFrom (environment : Environment) : List Override → Config → Config × Option LoadFault
  | [], c => (c, none)
  | o :: rest, c =>
    match applyOverride environment c o with
    | .ok c => applyFrom environment rest c
    | .error fault => (c, some fault)

def applyOverrides (c : Config) (environment : Environment) : Config × Option LoadFault :=
  applyFrom environment overrides c

def ofText (path : String) (text : List Char) : Except LoadFault Config :=
  match ofJson text with
  | .ok c => .ok c
  | .error fault => .error (.malformed path fault)

def ofFile (files : Files) (path : String) : Except LoadFault Config :=
  match files.readText path with
  | .ok text => ofText path text
  | .error fault => .error (.unreadable path fault)

def validate (c : Config) : Except LoadFault Unit :=
  match c.invalid? with
  | none => .ok ()
  | some fault => .error (.invalid fault)

def load (environment : Environment) (files : Files) : Except LoadFault Config := do
  let base ← match ← readVariable environment fileVariable with
    | some path => ofFile files (.ofList path)
    | none => .ok standard
  match base.applyOverrides environment with
  | (_, some fault) => .error fault
  | (c, none) =>
    c.validate
    .ok c

end Config
end Turtle
