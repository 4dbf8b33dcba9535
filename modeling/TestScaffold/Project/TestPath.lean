import TestScaffold.Path
import TestScaffold.Text.LowerCase
import TestScaffold.Text.Quote

/-!
# The path of a test file

A test file stands next to its source and marks its name: `.spec` before the
suffix for Karma and Jasmine, `.test` for any other framework.

Main results:

- Theorem `Project.testPath_parent`: the test file is a sibling of the source.
-/

namespace TestScaffold
namespace Project

/-- The frameworks whose test files are marked as specifications. -/
def specFrameworks : List String :=
  ["karma", "jasmine"]

/-- The mark in the name of a framework's test files. -/
def marker (framework : String) : String :=
  if specFrameworks.contains (String.ofList (Text.lower framework.toList)) then ".spec"
  else ".test"

/-- The name of the test file for a source file's name. -/
def testName (name framework : String) : String :=
  Path.stem name ++ marker framework ++ Path.suffix name

/-- The path of the test file for a source file, unless the path has no name. -/
def testPath? (source : Path) (framework : String) : Option Path :=
  source.name?.map fun name => source.withName (testName name framework)

/-- The message about a path without a name. -/
def emptyNameMessage (path : Path) : String :=
  "PosixPath(" ++ Text.quote path.toString ++ ") has an empty name"

/-- The test file is a sibling of the source. -/
theorem testPath_parent {source test : Path} {framework : String}
    (h : testPath? source framework = some test) : test.parent = source.parent := by
  simp only [testPath?, Option.map_eq_some_iff] at h
  obtain ⟨name, _, rfl⟩ := h
  simp

end Project
end TestScaffold
