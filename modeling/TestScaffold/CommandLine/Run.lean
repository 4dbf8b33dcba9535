import TestScaffold.CommandLine.Command
import TestScaffold.Generate
import TestScaffold.Model.Json

/-!
# Running a command line

A command line, run on a file tree, gives what is printed, an exit code and the
tree it leaves.  The log goes to the error output, before the command's own
lines there.

Main results:

- Theorem `CommandLine.printed_exit`: the log has no part in the exit code.
-/

namespace TestScaffold
namespace CommandLine

/-- What a run prints and the code it exits with. -/
structure Output where
  exit : Nat
  stdout : String := ""
  stderr : String := ""
deriving DecidableEq, Repr

/-- The lines of a log as they are printed. -/
def logText (verbose : Bool) (log : Log) : String :=
  String.join ((log.shown verbose).map fun line => line.render ++ "\n")

/-- What a command says: its exit code, its output and its own lines on the error output. -/
structure Reply where
  exit : Nat
  stdout : String := ""
  notice : String := ""
deriving DecidableEq, Repr

/-- The output of a reply after a log. -/
def Reply.printed (reply : Reply) (verbose : Bool) (log : Log) : Output :=
  ⟨reply.exit, reply.stdout, logText verbose log ++ reply.notice⟩

@[simp]
theorem printed_exit (reply : Reply) (verbose : Bool) (log : Log) :
    (reply.printed verbose log).exit = reply.exit :=
  rfl

/-- The reply to a failure, after the log line that reports it. -/
def failureReply (intro : String) (failure : Failure) : Log × Except Failure Reply :=
  match failure.report? with
  | none => ([], .error failure)
  | some message =>
    ([.error (intro ++ message)], .ok { exit := 1, notice := "Error: " ++ message ++ "\n" })

/-! ## Commands -/

/-- Prints the model of a file. -/
def analyze (parse : Extract.SyntaxParser) (tree : FileTree) (file : String) :
    Log × Except Failure Reply :=
  match Generate.modelOfFile parse tree (.ofString file) with
  | (log, .ok model) => (log, .ok { exit := 0, stdout := model.toJson.pretty ++ "\n" })
  | (log, .error failure) =>
    let (more, reply) := failureReply "Analysis failed: " failure
    (log ++ more, reply)

/-- Prints what is known about the project of a file. -/
def detect (tree : FileTree) (file : String) : Log × Except Failure Reply :=
  match Project.detect tree (.ofString file) with
  | .error failure => ([], .error (.detection failure))
  | .ok (log, info) =>
    let framework := Project.recommended info
    let commands := Project.installCommands framework info.kind info.packageManager
    let report := Json.object [
      ("project", info.toJson),
      ("recommended_framework", .text framework.name),
      ("install_commands", .arr (commands.map .text))]
    (log, .ok { exit := 0, stdout := report.pretty ++ "\n" })

/-- The reply to a generation. -/
def generateReply (dryRun : Bool) (result : Generate.Result) : Reply :=
  let stdout := result.toJson.pretty ++ "\n"
  if !result.success then
    { exit := 1, stdout, notice := "Error: " ++ "; ".intercalate result.errors ++ "\n" }
  else if dryRun then { exit := 0, stdout }
  else { exit := 0, stdout, notice := "Test written to: " ++ result.testFilePath ++ "\n" }

/-- The function that a prompt is about: the first one with a name, or without a name the first
exported one, or the first one. -/
def selectFunction? (model : SourceModel) : Option String → Option Model.Function
  | some name => model.functions.find? (·.name == name)
  | none => model.exportedFunctions.head?.or model.functions.head?

/-- The lines of a source on which a function stands. -/
def functionLines (source : List Char) (function : Model.Function) : String :=
  let start := function.location.start.line - 1
  let lines := ((Text.splitLines source).take function.location.stop.line).drop start
  "\n".intercalate (lines.map String.ofList)

/-- The source of the function that a prompt is about. -/
def functionSource (source : List Char) (model : SourceModel) (name : Option String) :
    Except Failure String :=
  match selectFunction? model name with
  | some function => .ok (functionLines source function)
  | none => .error (.noFunction name model.filePath)

/-- The documentation that a prompt quotes. -/
def docsOf (tree : FileTree) (docs : Option String) : Except Failure String :=
  let file := docs.getD ""
  if file.isEmpty then .ok "" else String.ofList <$> Generate.sourceOf tree (.ofString file)

/-- The prompt for unit tests, and the log of building it. -/
def unitPrompt (tree : FileTree) (request : PromptRequest) (source : List Char)
    (model : SourceModel) (framework : String) : Log × Except Failure String :=
  match docsOf tree request.docs with
  | .error failure => ([], .error failure)
  | .ok docs =>
    match Generate.codeFor model framework with
    | (log, .error failure) => (log, .error failure)
    | (log, .ok baseline) =>
      (log ++ Prompt.docsLog docs,
        .ok (Prompt.unitTests (String.ofList source) framework docs request.coverage baseline))

/-- The prompt that is asked for about a model, and the log of building it. -/
def promptFor (tree : FileTree) (request : PromptRequest) (source : List Char)
    (model : SourceModel) (framework : String) : Log × Except Failure String :=
  match request.kind with
  | .mocks => ([], .ok (Prompt.mocks (model.imports.map (·.source)) framework))
  | .edgeCases =>
    ([], (fun code => Prompt.edgeCases code framework) <$>
      functionSource source model request.function)
  | .unit => unitPrompt tree request source model framework

/-- The prompt that is asked for, and the log of building it. -/
def buildPrompt (parse : Extract.SyntaxParser) (tree : FileTree) (request : PromptRequest) :
    Log × Except Failure String :=
  let path := Path.ofString request.file
  match Generate.modelOfFile parse tree path with
  | (log, .error failure) => (log, .error failure)
  | (log, .ok model) =>
    match Generate.sourceOf tree path with
    | .error failure => (log, .error failure)
    | .ok source =>
      match Generate.resolveFramework tree request.file request.framework with
      | (chosen, .error failure) => (log ++ chosen, .error failure)
      | (chosen, .ok framework) =>
        let (made, text) := promptFor tree request source model framework
        (log ++ chosen ++ made, text)

/-- Prints a prompt. -/
def prompt (parse : Extract.SyntaxParser) (tree : FileTree) (request : PromptRequest) :
    Log × Except Failure Reply :=
  match buildPrompt parse tree request with
  | (log, .ok text) => (log, .ok { exit := 0, stdout := text ++ "\n" })
  | (log, .error failure) =>
    let (more, reply) := failureReply "Could not build prompt: " failure
    (log ++ more, reply)

/-- Runs a command. -/
def runCommand (parse : Extract.SyntaxParser) (tree : FileTree) :
    Command → Generate.Run Reply
  | .analyze file =>
    let (log, reply) := analyze parse tree file
    ⟨log, tree, reply⟩
  | .detect file =>
    let (log, reply) := detect tree file
    ⟨log, tree, reply⟩
  | .prompt request =>
    let (log, reply) := prompt parse tree request
    ⟨log, tree, reply⟩
  | .generate file framework output dryRun =>
    let run := Generate.run parse tree
      { filePath := file, framework, outputPath := output, write := !dryRun }
    ⟨run.log, run.tree, generateReply dryRun <$> run.outcome⟩

/-- The output for a command line that gives no command. -/
def refusalOutput (refusal : Refusal) : Output :=
  match refusal.stop with
  | .help => { exit := 1, stdout := refusal.help.text }
  | .wrong message => { exit := 2, stderr := refusal.help.errorText message }

/-- Runs a command line on a file tree. -/
def run (parse : Extract.SyntaxParser) (tree : FileTree) (words : List String) :
    FileTree × Except Failure Output :=
  match Invocation.read words with
  | .error refusal => (tree, .ok (refusalOutput refusal))
  | .ok ⟨_, none⟩ => (tree, .ok { exit := 1, stderr := Help.main.text })
  | .ok ⟨verbose, some command⟩ =>
    let result := runCommand parse tree command
    (result.tree, (fun reply => reply.printed verbose result.log) <$> result.outcome)

end CommandLine
end TestScaffold
