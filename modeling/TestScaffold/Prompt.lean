import TestScaffold.Log

/-!
# Prompts

Texts that ask a language model to refine the generated tests.
-/

namespace TestScaffold
namespace Prompt

/-- The coverage asked for unless another is given. -/
def defaultCoverage : Int := 85

/-- The most characters of documentation that a prompt quotes. -/
def maxDocs : Nat := 10000

/-- Documentation cut to its limit. -/
def cutDocs (docs : String) : String :=
  if docs.length > maxDocs then String.ofList (docs.toList.take maxDocs) else docs

/-- What cutting documentation logs. -/
def docsLog (docs : String) : Log :=
  if docs.length > maxDocs then
    [.info ("Truncating documentation from " ++ toString docs.length ++ " to " ++
      toString maxDocs ++ " chars")]
  else []

/-- A text between lines of three grave accents. -/
def fenced (text : String) : String :=
  "```\n" ++ text ++ "\n```"

/-- What complete tests are asked to fulfil. -/
def requirements (framework : String) (coverage : Int) : List String :=
  [ "REQUIREMENTS:",
    "1. Generate tests for ALL public functions and methods",
    "2. Target minimum " ++ toString coverage ++ "% code coverage",
    "3. Include edge cases and error handling tests",
    "4. Use appropriate matchers and assertions",
    "5. Follow " ++ framework ++ " best practices",
    "6. Include setup and teardown where needed",
    "7. Mock external dependencies",
    "8. Test both success and failure scenarios" ]

/-- The prompt for complete unit tests of a source file. -/
def unitTests (source framework docs : String) (coverage : Int) (baseline : String) : String :=
  let docs := cutDocs docs
  "\n\n".intercalate <|
    [ "You are an expert test engineer. Generate comprehensive unit tests for the following code.",
      "TESTING FRAMEWORK: " ++ framework ] ++
    (if docs.isEmpty then [] else ["FRAMEWORK DOCUMENTATION:\n" ++ docs]) ++
    [ "SOURCE CODE TO TEST:\n" ++ fenced source ] ++
    (if baseline.isEmpty then []
      else ["BASELINE TESTS (extend these, keep their structure):\n" ++ fenced baseline]) ++
    [ "\n".intercalate (requirements framework coverage),
      "Generate ONLY the test code, properly formatted and ready to run." ]

/-- The prompt for edge cases of one function. -/
def edgeCases (functionCode framework : String) : String :=
  "\n".intercalate [
    "Generate edge case tests for this function using " ++ framework ++ ":",
    "",
    fenced functionCode,
    "",
    "Include tests for:",
    "- Null/undefined inputs",
    "- Empty strings/arrays",
    "- Boundary values",
    "- Type errors",
    "- Invalid inputs",
    "- Async errors (if applicable)" ]

/-- The prompt for mocks of dependencies. -/
def mocks (dependencies : List String) (framework : String) : String :=
  "\n".intercalate [
    "Generate mock implementations for these dependencies using " ++ framework ++ ":",
    "",
    "\n".intercalate dependencies,
    "",
    "Create realistic mocks with:",
    "- Proper method signatures",
    "- Spy/mock functions",
    "- Return value configuration",
    "- Call verification" ]

/-! ## Definitions -/

/-- An argument that a prompt takes. -/
structure Argument where
  name : String
  description : String
  required : Bool
deriving DecidableEq, Repr

/-- A prompt as it is offered to a client. -/
structure Definition where
  name : String
  description : String
  arguments : List Argument
deriving DecidableEq, Repr

/-- The prompts that are offered. -/
def definitions : List Definition :=
  [ { name := "generate-unit-test"
      description := "Generate comprehensive unit tests for a given source file"
      arguments := [
        ⟨"sourceCode", "The source code to generate tests for", true⟩,
        ⟨"framework", "Testing framework (jest, jasmine, karma)", true⟩,
        ⟨"projectType", "Project type (angular, react, nextjs)", false⟩,
        ⟨"coverageTarget", "Target coverage percentage (default: 85)", false⟩] },
    { name := "generate-edge-cases"
      description := "Generate edge case tests for a function"
      arguments := [
        ⟨"functionCode", "The function code to test", true⟩,
        ⟨"framework", "Testing framework", true⟩] },
    { name := "generate-mocks"
      description := "Generate mock implementations for dependencies"
      arguments := [
        ⟨"dependencies", "List of dependencies to mock", true⟩,
        ⟨"framework", "Testing framework", true⟩] } ]

/-- The offered prompt with a name. -/
def definition? (name : String) : Option Definition :=
  definitions.find? (·.name == name)

end Prompt
end TestScaffold
