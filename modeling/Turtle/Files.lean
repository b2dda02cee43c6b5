import Turtle.Text.Utf8

/-! Files as a program sees them: what a path leads to, and what reading it gives. -/
namespace Turtle

inductive Entry where
  | file (content : Text.Bytes)
  | directory
  deriving DecidableEq, Repr

inductive PathFault where
  | missing
  /-- Something on the way is a file. -/
  | notDirectory
  deriving DecidableEq, Repr

abbrev Files := String → Except PathFault Entry

inductive ReadFault where
  | path (fault : PathFault)
  | isDirectory
  | notText
  deriving DecidableEq, Repr

/-- What is said of bytes that are not UTF-8. -/
def notTextMessage : String := "stream did not contain valid UTF-8"

def ReadFault.message : ReadFault → String
  | path .missing => "No such file or directory (os error 2)"
  | path .notDirectory => "Not a directory (os error 20)"
  | isDirectory => "Is a directory (os error 21)"
  | notText => notTextMessage

def Files.readText (files : Files) (path : String) : Except ReadFault (List Char) :=
  match files path with
  | .error fault => .error (.path fault)
  | .ok .directory => .error .isDirectory
  | .ok (.file content) =>
    match Text.decode? content with
    | some text => .ok text
    | none => .error .notText

/-- A directory and what is in it, by the names that lead there. -/
structure Tree where
  files : List (List String × Text.Bytes)
  directories : List (List String)

namespace Tree

def names (path : String) : List String := (path.toList.splitOn '/').map .ofList

def ofLists (files : List (String × Text.Bytes)) (directories : List String) : Tree :=
  ⟨files.map fun (path, content) => (names path, content), directories.map names⟩

/-- Where a walk along a path stands: inside the tree, or in a directory around it. -/
inductive Spot where
  | inside (way : List String)
  | outside
  deriving DecidableEq

/-- Whether a way leads to a directory: one that is listed, or one on the way to what is listed. -/
def isDirectory (t : Tree) (way : List String) : Bool :=
  way.isEmpty || t.directories.any way.isPrefixOf ||
    t.files.any fun (file, _) => way.isPrefixOf file && way != file

def entry? (t : Tree) (way : List String) : Option Entry :=
  match t.files.find? fun (file, _) => file == way with
  | some (_, content) => some (.file content)
  | none => if t.isDirectory way then some .directory else none

/-- One step of a walk. Every step starts from a directory, also one that goes nowhere. -/
def walk (t : Tree) (spot : Spot) (name : String) : Except PathFault Spot :=
  let stays := name = "" ∨ name = "."
  match spot with
  | .outside => if stays ∨ name = ".." then .ok .outside else .error .missing
  | .inside way =>
    match t.entry? way with
    | some .directory =>
      if stays then .ok (.inside way)
      else if name = ".." then .ok (if way = [] then .outside else .inside way.dropLast)
      else if (t.entry? (way ++ [name])).isSome then .ok (.inside (way ++ [name]))
      else .error .missing
    | some (.file _) => .error .notDirectory
    | none => .error .missing

/-- What is at a spot. Of what lies around the tree only the directories above it are known. -/
def entryAt (t : Tree) : Spot → Except PathFault Entry
  | .outside => .ok .directory
  | .inside way =>
    match t.entry? way with
    | some entry => .ok entry
    | none => .error .missing

/-- What a path leads to, from inside the tree. -/
def resolve (t : Tree) : Files := fun path =>
  if path = "" then .error .missing
  else do
    let start := if path.toList.head? = some '/' then Spot.outside else .inside []
    let spot ← (names path).foldlM t.walk start
    t.entryAt spot

end Tree
end Turtle
