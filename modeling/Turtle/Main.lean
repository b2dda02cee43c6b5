import Turtle.Program

/-! The command line: collects what the program is given, runs its session tick by tick, and prints
console lines as they come. -/
namespace Turtle.Program

def lookUp (path : String) : IO (Except PathFault Entry) := do
  try
    return .ok (.file (← IO.FS.readBinFile path).toList)
  catch
    | .inappropriateType _ 21 _ => return .ok .directory
    | .inappropriateType _ _ _ => return .error .notDirectory
    | _ => return .error .missing

def settings : IO (List (String × Text.Bytes)) := do
  let names := Config.fileVariable :: Config.overrides.map Config.Override.name
  names.filterMapM fun name => do
    match ← IO.getEnv name with
    | some value => return some (name, value.toUTF8.toList)
    | none => return none

/-- Looks up beforehand the paths that the program may follow. -/
def host (arguments : List String) : IO Host := do
  let values ← settings
  let environment : Environment := fun name => values.lookup name
  let named := match environment Config.fileVariable with
    | some value => (Text.decode? value).toList.map String.ofList
    | none => []
  let entries ← (arguments.take 1 ++ named).mapM fun path => do return (path, ← lookUp path)
  let input ← if arguments.isEmpty || arguments.head? = some "-" then
      (← IO.getStdin).readBinToEnd
    else pure .empty
  return {
    arguments := arguments
    environment := environment
    files := fun path => (entries.lookup path).getD (.error .missing)
    input := input.toList }

partial def play (dt : Single) (session : Session) : IO Unit := do
  if session.scheduler.isIdle then return
  let session := session.turn dt
  for line in session.consoleLines do
    IO.println line
  play dt { session with delivered := #[] }

end Turtle.Program

open Turtle in
def main (arguments : List String) : IO UInt32 := do
  match Program.begin (← Program.host arguments) with
  | .error halt => return .ofNat halt.code
  | .ok (dt, session) =>
    Program.play dt session
    return 0
