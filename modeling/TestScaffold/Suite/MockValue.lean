import TestScaffold.Model.Basic
import TestScaffold.Text.Blank
import TestScaffold.Text.LowerCase

/-!
# Placeholder values

A generated call passes one placeholder for each parameter, chosen by the
parameter's type.

Main results:

- Theorem `Suite.mockValue_none`: a parameter without a type gets the default.
- Theorem `Suite.mockKey_array`: every array type has one placeholder.
-/

namespace TestScaffold
namespace Suite

/-- The placeholder for types that have none of their own. -/
def defaultMock : String := "\x7b\x7d"

/-- The placeholders, by type. -/
def mockTable : List (String × String) :=
  [("string", "'test'"), ("number", "42"), ("boolean", "true"), ("array", "[]"),
    ("object", "\x7b\x7d"), ("date", "new Date()"), ("promise", "Promise.resolve()"), ("void", "")]

/-- The row of the table under which a type is looked up. -/
def mockKey (type : String) : String :=
  let key := Text.lower (Text.trim type.toList)
  if ['[', ']'].isSuffixOf key then "array" else String.ofList key

/-- The placeholder for a value of a type.  The omitted rows of the table are not used. -/
def mockValue (omitted : List String) : Option String → String
  | none => defaultMock
  | some type =>
    if type.isEmpty || omitted.contains (mockKey type) then defaultMock
    else (mockTable.lookup (mockKey type)).getD defaultMock

/-- The arguments of a call, one for each parameter. -/
def mockArguments (omitted : List String) (parameters : List Model.Parameter) : String :=
  ", ".intercalate (parameters.map fun parameter => mockValue omitted parameter.type)

@[simp]
theorem mockValue_none (omitted : List String) : mockValue omitted none = defaultMock :=
  rfl

/-- Every array type has one placeholder. -/
theorem mockKey_array {type : String}
    (h : ['[', ']'].isSuffixOf (Text.lower (Text.trim type.toList))) :
    mockKey type = "array" := by
  simp only [mockKey, h, if_true]

end Suite
end TestScaffold
