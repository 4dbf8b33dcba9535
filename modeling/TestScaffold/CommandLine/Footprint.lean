import TestScaffold.CommandLine.Command
import TestScaffold.Project.Detection
import TestScaffold.Project.TestPath

/-!
# The places that a command looks at

A command reads the files that it names and looks around them for the files of
a project.  Which places these are follows from its words alone, so a tree that
holds the entries at these places stands for the whole file system.
-/

namespace TestScaffold
namespace CommandLine

/-- The files that a command names, and those that it may write. -/
def Command.files : Command → List Path
  | .analyze file => [.ofString file]
  | .detect file => [.ofString file]
  | .prompt request => Path.ofString request.file :: request.docs.toList.map Path.ofString
  | .generate file _ output _ =>
    let source := Path.ofString file
    let siblings := ["jest", "jasmine"].filterMap (Project.testPath? source)
    source :: siblings ++ output.toList.map Path.ofString

/-- The places on the way from a place along segments. -/
def wayFrom : Place → List String → List Place
  | place, [] => [place]
  | place, segment :: rest => place :: wayFrom (FileTree.enter place segment) rest

/-- The places that concern a path: those on the way to it, and the files of a project in the
directories above it. -/
def placesOf (tree : FileTree) (path : Path) : List Place :=
  let way := wayFrom (tree.startOf path) path.parts
  let above := FileTree.upward (tree.resolve path).dropLast
  way.flatMap FileTree.upward ++
    above.flatMap fun directory => Project.projectFiles.map fun name => directory ++ [name]

/-- The places that a command line looks at, with every directory before what is in it. -/
def footprint (tree : FileTree) (words : List String) : List Place :=
  match Invocation.read words with
  | .ok ⟨_, some command⟩ =>
    let places := (command.files.flatMap (placesOf tree)).eraseDups
    places.mergeSort fun p q => p.length ≤ q.length
  | _ => []

end CommandLine
end TestScaffold
