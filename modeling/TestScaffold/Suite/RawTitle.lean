import TestScaffold.RawPath
import TestScaffold.Suite.Synthesis

/-!
# Suites for paths of code points

The module under test is named by its path, and the name stands in a suite twice:
in the import line and in the title of the outer block.  With a path of code
points, the name may hold surrogates, and so may the test code; nothing else of
the test code depends on the path.
-/

namespace TestScaffold
namespace Suite

/-! ## The name of a module -/

/-- The code points after the last slash, of either direction. -/
def rawLastSegment (text : RawText) : RawText :=
  (text.reverse.takeWhile fun p => p != .scalar '/' && p != .scalar '\\').reverse

/-- The code points without the ending of a source file. -/
def rawDropExtension (text : RawText) : RawText :=
  match sourceExtensions.find? fun extension => (CodePoint.ofString extension).isSuffixOf text with
  | some extension => text.take (text.length - extension.toList.length)
  | none => text

/-- The code points without the ending of a source file, which may stand before a final line
feed. -/
def rawDropSourceExtension (text : RawText) : RawText :=
  match text.reverse with
  | .scalar '\n' :: before =>
    let line := before.reverse
    if (rawDropExtension line).length < line.length then rawDropExtension line ++ [.scalar '\n']
    else text
  | _ => rawDropExtension text

/-- The name of the module at a path of code points. -/
def rawModuleName (filePath : RawText) : RawText :=
  match rawDropSourceExtension (rawLastSegment filePath) with
  | [] => CodePoint.ofString "module"
  | name => name

/-! ## Test code -/

/-- A code point inside a title. -/
def rawEscapePoint : CodePoint → RawText
  | .scalar c => (escapeChar c).map .scalar
  | p => [p]

/-- The line that imports every exported name from the module of a name, if there is one. -/
def rawImportLine (model : SourceModel) (name : RawText) : RawText :=
  match model.exports with
  | [] => []
  | exports =>
    CodePoint.ofString ("import \x7b " ++ ", ".intercalate (exports.map (·.name)) ++
      " \x7d from './") ++ name ++ CodePoint.ofString "';"

/-- The text of a suite for the module of a name. -/
def rawSuiteBody (convention : Convention) (model : SourceModel) (name : RawText) : RawText :=
  CodePoint.ofString "describe('" ++ name.flatMap rawEscapePoint ++
    CodePoint.ofString ("', () => \x7b\n" ++
      unlines ([""].intercalate (blocks convention model) ++ [closing ""]) ++ "\n")

/-- The text of the test file for a model whose path is a text of code points. -/
def rawTestCode (convention : Convention) (model : SourceModel) (filePath : RawText) : RawText :=
  let name := rawModuleName filePath
  rawImportLine model name ++ CodePoint.ofString "\n\n" ++ rawSuiteBody convention model name

end Suite
end TestScaffold
