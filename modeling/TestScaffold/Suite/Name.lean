/-!
# Names in a suite

The module under test is named by the last segment of its path, without the
extension.  Titles are written between single quotes.

Main results:

- Theorem `Suite.moduleName_ne_empty`: a module has a name.
-/

namespace TestScaffold
namespace Suite

/-- A character inside a title. -/
def escapeChar (c : Char) : List Char :=
  if c = '\\' ∨ c = '\'' then ['\\', c] else [c]

/-- A text inside a title: backslashes and single quotes are preceded by a backslash. -/
def escape (s : String) : String :=
  String.ofList (s.toList.flatMap escapeChar)

/-- The text after the last slash, of either direction. -/
def lastSegment (cs : List Char) : List Char :=
  (cs.reverse.takeWhile fun c => c != '/' && c != '\\').reverse

/-- The endings of source files. -/
def sourceExtensions : List String :=
  [".ts", ".mts", ".cts", ".tsx", ".mtsx", ".ctsx", ".js", ".mjs", ".cjs", ".jsx", ".mjsx",
    ".cjsx"]

/-- The text without the ending of a source file. -/
def dropExtension (cs : List Char) : List Char :=
  match sourceExtensions.find? fun extension => extension.toList.isSuffixOf cs with
  | some extension => cs.take (cs.length - extension.toList.length)
  | none => cs

/-- The text without the ending of a source file, which may stand before a final line feed. -/
def dropSourceExtension (cs : List Char) : List Char :=
  match cs.reverse with
  | '\n' :: before =>
    let line := before.reverse
    if (dropExtension line).length < line.length then dropExtension line ++ ['\n'] else cs
  | _ => dropExtension cs

/-- The name of the module at a path. -/
def moduleName (filePath : String) : String :=
  match dropSourceExtension (lastSegment filePath.toList) with
  | [] => "module"
  | name => String.ofList name

/-- A module has a name. -/
theorem moduleName_ne_empty (filePath : String) : moduleName filePath ≠ "" := by
  simp only [moduleName]
  split
  · decide
  · rename_i name hne
    intro h
    apply hne
    have := congrArg String.toList h
    simpa using this

end Suite
end TestScaffold
