/-!
# Help

The usage and the help of the program and of each of its commands, as they are
printed.
-/

namespace TestScaffold
namespace CommandLine

/-- The help of the program or of a command: how it is used, and what its arguments mean. -/
structure Help where
  program : String
  usage : List String
  details : List String
deriving DecidableEq, Repr

namespace Help

/-- The usage as it is printed. -/
def usageText (help : Help) : String :=
  "\n".intercalate help.usage ++ "\n"

/-- The help as it is printed. -/
def text (help : Help) : String :=
  "\n".intercalate (help.usage ++ "" :: help.details) ++ "\n"

/-- An error in the arguments as it is printed. -/
def errorText (help : Help) (message : String) : String :=
  help.usageText ++ help.program ++ ": error: " ++ message ++ "\n"

/-- The help of the program. -/
def main : Help where
  program := "js-test-generator"
  usage := [
    "usage: js-test-generator [-h] [--verbose] \x7banalyze,generate,detect,prompt\x7d ..."]
  details := [
    "Generate unit test scaffolds for JavaScript and TypeScript files",
    "",
    "positional arguments:",
    "  \x7banalyze,generate,detect,prompt\x7d",
    "                        Available commands",
    "    analyze             Print the structural model of a source file as JSON",
    "                        (default)",
    "    generate            Generate a test scaffold for a source file",
    "    detect              Detect project type and test framework",
    "    prompt              Print an LLM prompt for refining the generated tests",
    "",
    "options:",
    "  -h, --help            show this help message and exit",
    "  --verbose, -v         Log progress to stderr"]

/-- The help of the command that prints a model. -/
def analyze : Help where
  program := "js-test-generator analyze"
  usage := [
    "usage: js-test-generator analyze [-h] file"]
  details := [
    "positional arguments:",
    "  file        Source file to analyze",
    "",
    "options:",
    "  -h, --help  show this help message and exit"]

/-- The help of the command that generates tests. -/
def generate : Help where
  program := "js-test-generator generate"
  usage := [
    "usage: js-test-generator generate [-h] [--framework \x7bjest,jasmine,karma\x7d]",
    "                                  [--output OUTPUT] [--dry-run]",
    "                                  file"]
  details := [
    "positional arguments:",
    "  file                  Source file to generate tests for",
    "",
    "options:",
    "  -h, --help            show this help message and exit",
    "  --framework \x7bjest,jasmine,karma\x7d, -f \x7bjest,jasmine,karma\x7d",
    "                        Test framework (default: detected from package.json)",
    "  --output OUTPUT, -o OUTPUT",
    "                        Output path (default: <name>.test.<ext> or",
    "                        <name>.spec.<ext> next to the source)",
    "  --dry-run             Do not write the test file"]

/-- The help of the command that detects a project. -/
def detect : Help where
  program := "js-test-generator detect"
  usage := [
    "usage: js-test-generator detect [-h] file"]
  details := [
    "positional arguments:",
    "  file        Any file inside the project",
    "",
    "options:",
    "  -h, --help  show this help message and exit"]

/-- The help of the command that prints a prompt. -/
def prompt : Help where
  program := "js-test-generator prompt"
  usage := [
    "usage: js-test-generator prompt [-h] [--kind \x7bunit,edge-cases,mocks\x7d]",
    "                                [--framework \x7bjest,jasmine,karma\x7d]",
    "                                [--function FUNCTION] [--docs DOCS]",
    "                                [--coverage-target COVERAGE_TARGET]",
    "                                file"]
  details := [
    "positional arguments:",
    "  file                  Source file to build the prompt for",
    "",
    "options:",
    "  -h, --help            show this help message and exit",
    "  --kind \x7bunit,edge-cases,mocks\x7d",
    "                        Prompt to build (default: unit)",
    "  --framework \x7bjest,jasmine,karma\x7d, -f \x7bjest,jasmine,karma\x7d",
    "                        Test framework (default: detected from package.json)",
    "  --function FUNCTION   Function to build an edge-case prompt for (default:",
    "                        first exported)",
    "  --docs DOCS           Path to framework documentation to embed in the prompt",
    "  --coverage-target COVERAGE_TARGET",
    "                        Target coverage percentage (default: 85)"]

end Help

end CommandLine
end TestScaffold
