import TestScaffold.CommandLine.Footprint
import TestScaffold.CommandLine.Run
import TestScaffold.Grammar.Program

/-!
# The program

Runs a command line on the file system: the places that it looks at become a
tree, the command runs on the tree, and what it changed in the tree is written
back.
-/

namespace TestScaffold
namespace Session

/-- The path of a place as text. -/
def placeText (place : Place) : String :=
  (Path.mk .root place).toString

/-- The entry at a place whose directory exists. -/
def probe (place : Place) : IO (Option Entry) := do
  try
    let bytes ← IO.FS.readBinFile (placeText place)
    return some (.file bytes.toList)
  catch
    | .inappropriateType .. => return some .directory
    | _ => return none

/-- The tree with the entry at a place, if there is one. -/
def loadPlace (tree : FileTree) (place : Place) : IO FileTree := do
  if place.isEmpty || tree.lookup place.dropLast != some .directory then return tree
  match ← probe place with
  | some entry => return tree.insert place entry
  | none => return tree

/-- The tree that a command line needs. -/
def loadTree (words : List String) : IO FileTree := do
  let directory := Path.ofString (← IO.currentDir).toString
  let start : FileTree := { workingDirectory := directory.parts }
  (CommandLine.footprint start words).foldlM loadPlace start

/-- Writes an entry, unless the tree before has it. -/
def saveEntry (before : FileTree) (place : Place) (entry : Entry) : IO Unit := do
  if before.lookup place == some entry then return
  match entry with
  | .directory => IO.FS.createDirAll (placeText place)
  | .file bytes => IO.FS.writeBinFile (placeText place) ⟨bytes.toArray⟩

/-- Prints what a run gives, and gives its exit code. -/
def report : Except Failure CommandLine.Output → IO UInt32
  | .ok output => do
    IO.print output.stdout
    IO.eprint output.stderr
    return output.exit.toUInt32
  | .error failure => do
    IO.eprintln (failure.report?.getD "The project cannot be read.")
    return 1

/-- Runs a command line on the file system. -/
def run (words : List String) : IO UInt32 := do
  let before ← loadTree words
  let (after, outcome) := CommandLine.run Grammar.parse before words
  for (place, entry) in after.entries do
    saveEntry before place entry
  report outcome

end Session
end TestScaffold

/-- Runs a command line and exits with its code. -/
def main (words : List String) : IO UInt32 :=
  TestScaffold.Session.run words
