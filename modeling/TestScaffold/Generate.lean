import TestScaffold.Failure

/-!
# Generation

A source file becomes a test file in two steps.  The plan reads: it extracts
the model of the source, chooses the framework and synthesises the test code,
and changes nothing.  Carrying it out writes the test file.

Main results:

- Theorem `Generate.run_tree_of_not_write`: without writing, the file tree stays.
- Theorem `Generate.resolveFramework_of_given`: a framework that is asked for is
  used.
-/

namespace TestScaffold
namespace Generate

/-- What to generate and where to put it. -/
structure Request where
  filePath : String
  framework : Option String := none
  outputPath : Option String := none
  write : Bool := true
deriving DecidableEq, Repr

/-- The outcome of a generation; one that fails carries its error messages. -/
structure Result where
  success : Bool
  testFilePath : String := ""
  testCode : String := ""
  sourceCode : String := ""
  framework : Option String := none
  errors : List String := []
deriving DecidableEq, Repr

/-- The JSON form of an outcome. -/
def Result.toJson (result : Result) : Json :=
  .object [
    ("success", .bool result.success),
    ("test_file_path", .text result.testFilePath),
    ("test_code", .text result.testCode),
    ("original_code", .text result.sourceCode),
    ("framework", result.framework.elim .null .text),
    ("errors", .arr (result.errors.map .text))]

/-! ## Steps -/

/-- The model of a source text that holds no surrogates, and the log of extracting it. -/
def modelOf (parse : Extract.SyntaxParser) (source : List Char) (filePath : String) :
    Log × Except Failure SourceModel :=
  let outcome := Extract.extract parse (source.map .scalar) filePath
  (Extract.logOf filePath outcome, outcome.mapError .extraction)

/-- The source text of the file at a path. -/
def sourceOf (tree : FileTree) (path : Path) : Except Failure (List Char) :=
  (tree.readText path).mapError .file

/-- The model of the file at a path, and the log of extracting it. -/
def modelOfFile (parse : Extract.SyntaxParser) (tree : FileTree) (path : Path) :
    Log × Except Failure SourceModel :=
  let start : LogLine := .info ("Analyzing " ++ path.toString)
  match sourceOf tree path with
  | .error failure => ([start], .error failure)
  | .ok source =>
    let (log, outcome) := modelOf parse source path.toString
    (start :: log, outcome)

/-- The framework that was asked for, or the one recommended for the project of a file. -/
def resolveFramework (tree : FileTree) (filePath : String) (framework : Option String) :
    Log × Except Failure String :=
  let asked := framework.getD ""
  if !asked.isEmpty then ([], .ok asked)
  else
    match Project.detect tree (.ofString filePath) with
    | .error failure => ([], .error (.detection failure))
    | .ok (log, info) =>
      let name := (Project.recommended info).name
      (log ++ [.info ("No framework requested, using " ++ name ++ " for " ++ filePath)], .ok name)

/-- A framework that is asked for is used. -/
theorem resolveFramework_of_given (tree : FileTree) (filePath framework : String)
    (h : framework.isEmpty = false) :
    resolveFramework tree filePath (some framework) = ([], .ok framework) := by
  simp [resolveFramework, h]

/-- The test code for a model, and the log of synthesising it. -/
def codeFor (model : SourceModel) (framework : String) : Log × Except Failure String :=
  match Suite.testCode model framework with
  | .error failure => ([], .error (.synthesis failure))
  | .ok code => ([Suite.synthesisLog model framework], .ok code)

/-! ## Plans -/

/-- A test file that is ready to be written. -/
structure Plan where
  framework : String
  testPath : Path
  testCode : String
  sourceCode : String
deriving DecidableEq, Repr

/-- A failure, and the framework that was chosen before it. -/
structure Failed where
  framework : Option String
  failure : Failure
deriving DecidableEq, Repr

/-- The path of the test file for a request. -/
def testPathFor (request : Request) (framework : String) : Except Failure Path :=
  let output := request.outputPath.getD ""
  if !output.isEmpty then .ok (.ofString output)
  else
    let source := Path.ofString request.filePath
    match Project.testPath? source framework with
    | some path => .ok path
    | none => .error (.emptyName source)

/-- The test file for a request, and the log of planning it. -/
def plan (parse : Extract.SyntaxParser) (tree : FileTree) (request : Request) :
    Log × Except Failed Plan :=
  match sourceOf tree (.ofString request.filePath) with
  | .error failure => ([], .error ⟨none, failure⟩)
  | .ok source =>
    match modelOf parse source request.filePath with
    | (log, .error failure) => (log, .error ⟨none, failure⟩)
    | (log, .ok model) =>
      match resolveFramework tree request.filePath request.framework with
      | (chosen, .error failure) => (log ++ chosen, .error ⟨none, failure⟩)
      | (chosen, .ok framework) =>
        match codeFor model framework with
        | (made, .error failure) => (log ++ chosen ++ made, .error ⟨some framework, failure⟩)
        | (made, .ok code) =>
          match testPathFor request framework with
          | .error failure => (log ++ chosen ++ made, .error ⟨some framework, failure⟩)
          | .ok path =>
            (log ++ chosen ++ made, .ok ⟨framework, path, code, String.ofList source⟩)

/-! ## Runs -/

/-- A run: its log, the tree it leaves, and its outcome unless it ends early. -/
structure Run (α : Type) where
  log : Log
  tree : FileTree
  outcome : Except Failure α
deriving Repr

/-- The log line about a failure that is reported. -/
def failureLog (filePath : String) (failure : Failure) (message : String) : LogLine :=
  if failure.isSyntaxError then .error ("Could not parse " ++ filePath ++ ": " ++ message)
  else if failure.isFileError then .error ("File error for " ++ filePath ++ ": " ++ message)
  else .error ("Could not generate tests for " ++ filePath ++ ": " ++ message)

/-- The run that ends with a failure. -/
def failedRun (log : Log) (tree : FileTree) (filePath : String) (failed : Failed) :
    Run Result :=
  match failed.failure.report? with
  | none => ⟨log, tree, .error failed.failure⟩
  | some message =>
    ⟨log ++ [failureLog filePath failed.failure message], tree,
      .ok { success := false, framework := failed.framework, errors := [message] }⟩

/-- The outcome of a plan that was carried out. -/
def Plan.result (plan : Plan) : Result where
  success := true
  testFilePath := plan.testPath.toString
  testCode := plan.testCode
  sourceCode := plan.sourceCode
  framework := some plan.framework

/-- The last line of the log of a generation that succeeds. -/
def doneLog (filePath framework : String) : LogLine :=
  .info ("Generated " ++ framework ++ " tests for " ++ filePath)

/-- The log line about a test file that was written. -/
def writtenLog (path : Path) : LogLine :=
  .info ("Test written to " ++ path.toString)

/-- Generates the test file for a request. -/
def run (parse : Extract.SyntaxParser) (tree : FileTree) (request : Request) : Run Result :=
  let start : LogLine := .info ("Generating tests for " ++ request.filePath)
  match plan parse tree request with
  | (log, .error failed) => failedRun (start :: log) tree request.filePath failed
  | (log, .ok plan) =>
    if request.write then
      match tree.writeText plan.testPath plan.testCode with
      | (after, .error error) =>
        failedRun (start :: log) after request.filePath ⟨some plan.framework, .file error⟩
      | (after, .ok ()) =>
        ⟨start :: log ++ [writtenLog plan.testPath, doneLog request.filePath plan.framework],
          after, .ok plan.result⟩
    else
      ⟨start :: log ++ [doneLog request.filePath plan.framework], tree, .ok plan.result⟩

@[simp]
theorem failedRun_tree (log : Log) (tree : FileTree) (filePath : String) (failed : Failed) :
    (failedRun log tree filePath failed).tree = tree := by
  simp only [failedRun]
  split <;> rfl

/-- Without writing, the file tree stays. -/
theorem run_tree_of_not_write (parse : Extract.SyntaxParser) (tree : FileTree)
    (request : Request) (h : request.write = false) : (run parse tree request).tree = tree := by
  simp only [run, h]
  split <;> simp

end Generate
end TestScaffold
