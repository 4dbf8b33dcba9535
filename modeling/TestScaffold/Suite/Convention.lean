import TestScaffold.Text.Blank
import TestScaffold.Text.LowerCase

/-!
# Test conventions

A suite is written in one of two conventions.  Three framework names choose
between them: Karma runs suites written in the convention of Jasmine.

Main results:

- Theorem `Convention.ofFramework?_eq_some_iff`: the names that choose each
  convention.
-/

namespace TestScaffold

/-- A way to write test suites. -/
inductive Convention where
  | jest
  | jasmine
deriving DecidableEq, Repr, Inhabited

namespace Convention

/-- The framework names and the conventions they choose, in alphabetical order. -/
def frameworks : List (String × Convention) :=
  [("jasmine", .jasmine), ("jest", .jest), ("karma", .jasmine)]

/-- A framework name without blanks around it, in small letters. -/
def normalized (framework : String) : String :=
  String.ofList (Text.lower (Text.trim framework.toList))

/-- The convention that a framework name chooses. -/
def ofFramework? (framework : String) : Option Convention :=
  frameworks.lookup (normalized framework)

/-- The message about a name that chooses no convention. -/
def unsupportedMessage (framework : String) : String :=
  "Unsupported test convention '" ++ framework ++ "' (supported: " ++
    ", ".intercalate (frameworks.map (·.1)) ++ ")"

/-- The placeholder rows that a convention does not use. -/
def omittedMocks : Convention → List String
  | .jest => []
  | .jasmine => ["date", "promise"]

/-- The names that choose each convention. -/
theorem ofFramework?_eq_some_iff (framework : String) (convention : Convention) :
    ofFramework? framework = some convention ↔
      (convention = .jest ∧ normalized framework = "jest") ∨
        (convention = .jasmine ∧
          (normalized framework = "jasmine" ∨ normalized framework = "karma")) := by
  simp only [ofFramework?, frameworks, List.lookup_cons, List.lookup_nil]
  generalize normalized framework = name
  by_cases h1 : name = "jasmine"
  · subst h1; cases convention <;> decide
  · by_cases h2 : name = "jest"
    · subst h2; cases convention <;> decide
    · by_cases h3 : name = "karma"
      · subst h3; cases convention <;> decide
      · have e1 : (name == "jasmine") = false := by simpa using h1
        have e2 : (name == "jest") = false := by simpa using h2
        have e3 : (name == "karma") = false := by simpa using h3
        simp [e1, e2, e3, h1, h2, h3]

end Convention

end TestScaffold
