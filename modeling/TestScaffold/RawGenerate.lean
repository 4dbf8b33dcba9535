import TestScaffold.Generate
import TestScaffold.Suite.RawTitle

/-!
# Generation from texts of code points

A request comes from outside, and its texts are texts of code points.  What they
hold besides characters shows in three places: a path that stands for no bytes
cannot be opened, messages and results carry the path as it was given, and test
code that names such a path cannot be encoded.  The test code is encoded when it
is written, and by then the file is open and empty.

The steps are those of a generation from plain texts.  Their log is left out: it
has no part in what a generation changes and returns.
-/

namespace TestScaffold

/-! ## Messages -/

/-- The message of a failed operation on the file at a path or on a directory above it. -/
def FileError.rawMessage (error : FileError) (path : RawPath) : String :=
  "[Errno " ++ toString error.cause.code ++ "] " ++ error.cause.text ++ ": " ++
    Text.quoteRaw (path.upTo error.path.parts.length).toText

/-- The message of a syntax error in the file at a path. -/
def Extract.SyntaxError.rawMessage (error : SyntaxError) (filePath : RawText) : RawText :=
  filePath ++ CodePoint.ofString (":" ++ toString error.line ++ ":" ++ toString error.column ++
    ": " ++ error.reason)

/-- The message of a failed synthesis for a path and a framework. -/
def Suite.Failure.rawMessage (filePath framework : RawText) : Suite.Failure → RawText
  | unsupported _ =>
    CodePoint.ofString "Unsupported test convention '" ++ framework ++
      CodePoint.ofString ("' (supported: " ++
        ", ".intercalate (Convention.frameworks.map (·.1)) ++ ")")
  | mismatched name _ declared listed =>
    CodePoint.ofString ("Export '" ++ name ++ "' in ") ++ filePath ++
      CodePoint.ofString (" has " ++ toString declared ++
        " matching exported declarations, expected " ++ toString listed)
  | unlisted name _ =>
    CodePoint.ofString ("Exported declaration '" ++ name ++ "' in ") ++ filePath ++
      CodePoint.ofString " has no export entry"
  | unnamed _ => CodePoint.ofString "Unnamed function in " ++ filePath

/-- The message of a failure that is reported, for the source of a generation, its framework and
the path that was in use. -/
def Failure.rawReport? (filePath framework : RawText) (used : RawPath) :
    Failure → Option RawText
  | file error => some (CodePoint.ofString (error.rawMessage used))
  | extraction (.unencodable error) => some (error.rawMessage filePath)
  | extraction (.invalid error) => some (error.rawMessage filePath)
  | synthesis failure => some (failure.rawMessage filePath framework)
  | failure => failure.report?.map CodePoint.ofString

namespace Generate

/-! ## Requests and outcomes -/

/-- What to generate and where to put it, in texts of code points. -/
structure RawRequest where
  filePath : RawText
  framework : Option RawText := none
  outputPath : Option RawText := none
  write : Bool := true
deriving DecidableEq, Repr

/-- The outcome of a generation from texts of code points. -/
structure RawResult where
  success : Bool
  testFilePath : RawText := []
  testCode : RawText := []
  sourceCode : String := ""
  framework : Option RawText := none
  errors : List RawText := []
deriving DecidableEq, Repr

/-- The JSON form of an outcome. -/
def RawResult.toJson (result : RawResult) : Json :=
  .object [
    ("success", .bool result.success),
    ("test_file_path", .str result.testFilePath),
    ("test_code", .str result.testCode),
    ("original_code", .text result.sourceCode),
    ("framework", result.framework.elim .null .str),
    ("errors", .arr (result.errors.map .str))]

/-- Why a generation ends without a result. -/
inductive Breakdown where
  /-- A failure that no result reports. -/
  | failure (failure : Failure)
  /-- A path stands for no bytes. -/
  | unnameable
  /-- The test code holds a surrogate, which no encoding can hold. -/
  | unencodable
deriving DecidableEq, Repr

/-- How a generation ends. -/
abbrev Ending := Except Breakdown RawResult

/-- How a generation ends that a failure stops. -/
def RawRequest.stopped (request : RawRequest) (framework : Option RawText) (used : RawPath)
    (failure : Failure) : Ending :=
  match failure.rawReport? request.filePath (framework.getD []) used with
  | none => .error (.failure failure)
  | some message => .ok { success := false, framework, errors := [message] }

/-! ## Plans -/

/-- A test file that is ready to be written. -/
structure RawPlan where
  framework : RawText
  testPath : RawPath
  testCode : RawText
  sourceCode : String
deriving DecidableEq, Repr

/-- The path of the source of a request. -/
def RawRequest.source (request : RawRequest) : RawPath :=
  .ofText request.filePath

/-- The framework that was asked for, or the one recommended for the project of a file. -/
def RawRequest.frameworkIn (request : RawRequest) (tree : FileTree) (stored : Path) :
    Except Failure RawText :=
  let asked := request.framework.getD []
  if asked ≠ [] then .ok asked
  else
    match Project.detect tree stored with
    | .error failure => .error (.detection failure)
    | .ok (_, info) => .ok (CodePoint.ofString (Project.recommended info).name)

/-- The test code for a model.  A surrogate belongs to no name of a framework. -/
def RawRequest.codeFor (request : RawRequest) (model : SourceModel) (framework : RawText) :
    Except Failure RawText :=
  match Convention.ofFramework? (CodePoint.shown framework) with
  | none => .error (.synthesis (.unsupported (CodePoint.shown framework)))
  | some convention =>
    match Suite.validate model with
    | .error failure => .error (.synthesis failure)
    | .ok () => .ok (Suite.rawTestCode convention model request.filePath)

/-- The path of the test file for a request. -/
def RawRequest.testPathFor (request : RawRequest) (stored : Path) (framework : RawText) :
    Except Failure RawPath :=
  let output := request.outputPath.getD []
  if output ≠ [] then .ok (.ofText output)
  else
    match request.source.marked? (Project.marker (CodePoint.shown framework)) with
    | some path => .ok path
    | none => .error (.emptyName stored)

/-- The test file for a request, or how its generation ends without one. -/
def planRaw (parse : Extract.SyntaxParser) (tree : FileTree) (request : RawRequest) :
    Except Ending RawPlan :=
  match request.source.stored? with
  | none => .error (.error .unnameable)
  | some stored => do
    let stopped (framework : Option RawText) := request.stopped framework request.source
    let source ← (sourceOf tree stored).mapError (stopped none)
    let model ← (modelOf parse source (CodePoint.shown request.filePath)).2.mapError
      (stopped none)
    let framework ← (request.frameworkIn tree stored).mapError (stopped none)
    let code ← (request.codeFor model framework).mapError (stopped framework)
    let path ← (request.testPathFor stored framework).mapError (stopped framework)
    return ⟨framework, path, code, String.ofList source⟩

end Generate

/-! ## Writing -/

/-- Writes a text of code points to a file, after making the directories above it that are
missing.  A file is opened, and so emptied, before the text is encoded: a text that no encoding
can hold leaves an empty file. -/
def FileTree.writeRawText (tree : FileTree) (path : RawPath) (text : RawText) :
    FileTree × Except Generate.Breakdown Unit :=
  match path.parent.stored? with
  | none => (tree, .error .unnameable)
  | some parent =>
    match tree.makeDirectories parent with
    | (tree, .error error) => (tree, .error (.failure (.file error)))
    | (tree, .ok ()) =>
      match path.stored? with
      | none => (tree, .error .unnameable)
      | some stored =>
        match tree.write stored [] with
        | .error error => (tree, .error (.failure (.file error)))
        | .ok opened =>
          match CodePoint.chars? text with
          | none => (opened, .error .unencodable)
          | some cs =>
            match opened.write stored (Utf8.encode cs) with
            | .error error => (opened, .error (.failure (.file error)))
            | .ok tree => (tree, .ok ())

namespace Generate

/-! ## Runs -/

/-- The outcome of a plan that was carried out. -/
def RawPlan.result (plan : RawPlan) : RawResult where
  success := true
  testFilePath := plan.testPath.toText
  testCode := plan.testCode
  sourceCode := plan.sourceCode
  framework := some plan.framework

/-- Generates the test file for a request: the tree that is left, and how the generation ends. -/
def runRaw (parse : Extract.SyntaxParser) (tree : FileTree) (request : RawRequest) :
    FileTree × Ending :=
  match planRaw parse tree request with
  | .error ending => (tree, ending)
  | .ok plan =>
    if request.write then
      match tree.writeRawText plan.testPath plan.testCode with
      | (after, .error (.failure failure)) =>
        (after, request.stopped (some plan.framework) plan.testPath failure)
      | (after, .error breakdown) => (after, .error breakdown)
      | (after, .ok ()) => (after, .ok plan.result)
    else (tree, .ok plan.result)

end Generate
end TestScaffold
