import TestScaffold.Suite.Convention
import TestScaffold.Suite.MockValue
import TestScaffold.Suite.Name

/-!
# Test suites

The text of a test suite.  Both conventions open with the same import line and
the same outer block; a function gets one block in either.  Jest nests a block
for each method and adds a stub for edge cases where there are parameters;
Jasmine lists the methods of a class side by side.

Everything is built from lines, so that a suite can be read line by line.
-/

namespace TestScaffold
namespace Suite

open Model

/-- Lines as one text. -/
def unlines (lines : List String) : String :=
  "\n".intercalate lines

/-- The opening line of a block: the kind of block, its title and what precedes the arrow. -/
def opening (indent word title arrow : String) : String :=
  indent ++ word ++ "('" ++ title ++ "', " ++ arrow ++ "() => \x7b"

/-- The closing line of a block. -/
def closing (indent : String) : String :=
  indent ++ "\x7d);"

/-- The mark before the arrow of a test that awaits. -/
def asyncMark (isAsync : Bool) : String :=
  if isAsync then "async " else ""

/-! ## Parts of a test -/

/-- The expectation that an expression is defined. -/
def expectDefined (indent expression : String) : String :=
  indent ++ "expect(" ++ expression ++ ").toBeDefined();"

/-- A call with placeholder arguments, and the expectation that its result is defined. -/
def invocation (convention : Convention) (indent callee : String) (isAsync : Bool)
    (parameters : List Parameter) : List String :=
  let await := if isAsync then "await " else ""
  [ indent ++ "const result = " ++ await ++ callee ++ "(" ++
      mockArguments convention.omittedMocks parameters ++ ");",
    expectDefined indent "result" ]

/-- A stub where the author adds edge cases. -/
def edgeCaseStub (indent : String) : List String :=
  [ opening indent "it" "should handle edge cases" "",
    indent ++ "  // Add edge case tests for different input scenarios",
    indent ++ "  expect(true).toBe(true);",
    closing indent ]

/-- The stub of a block, which only Jest has and only where there are parameters. -/
def edgeCases (convention : Convention) (indent : String) (parameters : List Parameter) :
    List String :=
  match convention, parameters with
  | .jest, _ :: _ => "" :: edgeCaseStub indent
  | _, _ => []

/-- The two tests of a callable: that it is defined and that a call succeeds. -/
def callableTests (convention : Convention) (indent subject callee : String) (isAsync : Bool)
    (parameters : List Parameter) : List String :=
  [ opening indent "it" (subject ++ "should be defined") "",
    expectDefined (indent ++ "  ") callee,
    closing indent,
    "",
    opening indent "it" (subject ++ "should execute without errors") (asyncMark isAsync) ] ++
  invocation convention (indent ++ "  ") callee isAsync parameters ++
  [ closing indent ]

/-! ## Functions, methods and classes -/

/-- The block of a function. -/
def functionLines (convention : Convention) (function : Function) : List String :=
  [ opening "  " "describe" (escape function.name) "" ] ++
  callableTests convention "    " "" function.name function.isAsync function.parameters ++
  edgeCases convention "    " function.parameters ++
  [ closing "  " ]

/-- The tests of a public method. -/
def methodLines (convention : Convention) (method : Method) : List String :=
  let callee := "instance." ++ method.name
  match convention with
  | .jest =>
    [ opening "    " "describe" (escape method.name) "" ] ++
    callableTests convention "      " "" callee method.isAsync method.parameters ++
    edgeCases convention "      " method.parameters ++
    [ closing "    " ]
  | .jasmine =>
    callableTests convention "    " (escape method.name ++ " ") callee method.isAsync
      method.parameters

/-- The declaration of the instance and its construction before each test. -/
def instanceSetup (convention : Convention) (cls : Model.Class) (typed : Bool) : List String :=
  let declaration := if typed then "let instance: " ++ cls.name ++ ";" else "let instance;"
  let arguments := cls.constructor?.elim "" fun method =>
    mockArguments convention.omittedMocks method.parameters
  [ "    " ++ declaration,
    "",
    "    beforeEach(() => \x7b",
    "      instance = new " ++ cls.name ++ "(" ++ arguments ++ ");",
    closing "    " ]

/-- The test that an instance is created. -/
def creationTest (convention : Convention) (cls : Model.Class) : List String :=
  [ opening "    " "it" "should create an instance" "",
    expectDefined "      " "instance" ] ++
  (match convention with
    | .jest => ["      expect(instance).toBeInstanceOf(" ++ cls.name ++ ");"]
    | .jasmine => []) ++
  [ closing "    " ]

/-- The block of a class. -/
def classLines (convention : Convention) (typed : Bool) (cls : Model.Class) : List String :=
  [ opening "  " "describe" (escape cls.name) "" ] ++
  instanceSetup convention cls typed ++
  "" :: creationTest convention cls ++
  cls.publicMethods.flatMap (fun method => "" :: methodLines convention method) ++
  [ closing "  " ]

/-! ## Suites -/

/-- The line that imports every exported name, if there is one. -/
def importLine (model : SourceModel) : String :=
  match model.exports with
  | [] => ""
  | exports =>
    "import \x7b " ++ ", ".intercalate (exports.map (·.name)) ++ " \x7d from './" ++
      moduleName model.filePath ++ "';"

/-- The blocks of a suite: one for each exported function, then one for each exported class. -/
def blocks (convention : Convention) (model : SourceModel) : List (List String) :=
  model.exportedFunctions.map (functionLines convention) ++
    model.exportedClasses.map (classLines convention model.isTyped)

/-- The lines of a suite; an empty line stands between two blocks. -/
def suiteLines (convention : Convention) (model : SourceModel) : List String :=
  opening "" "describe" (escape (moduleName model.filePath)) "" ::
    [""].intercalate (blocks convention model) ++ [closing ""]

/-- The text of a suite. -/
def suiteBody (convention : Convention) (model : SourceModel) : String :=
  unlines (suiteLines convention model) ++ "\n"

end Suite
end TestScaffold
