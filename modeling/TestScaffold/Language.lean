import TestScaffold.Model.Basic
import TestScaffold.Text.LowerCase

/-!
# The language of a path

A path's ending decides its language: four endings, in capital or small
letters, mark files whose declarations can carry types.
-/

namespace TestScaffold
namespace Language

/-- The endings of files whose declarations can carry types. -/
def typedExtensions : List String :=
  [".ts", ".tsx", ".mts", ".cts"]

/-- The language of the file at a path. -/
def ofPath (path : String) : Language :=
  let lowered := Text.lower path.toList
  if typedExtensions.any fun extension => extension.toList.isSuffixOf lowered then typescript
  else javascript

/-- A path has one of two languages. -/
theorem ofPath_eq (path : String) : ofPath path = typescript ∨ ofPath path = javascript := by
  simp only [ofPath]
  split <;> simp

end Language
end TestScaffold
