import TestScaffold.CommandLine.Help
import TestScaffold.CommandLine.Option
import TestScaffold.Json.Reader
import TestScaffold.Prompt
import TestScaffold.Text.Blank

/-!
# Commands

What a command line asks for.  A first word that is neither an option nor a
command names a file to analyse.
-/

namespace TestScaffold
namespace CommandLine

/-- The prompts that can be asked for. -/
inductive PromptKind where
  | unit
  | edgeCases
  | mocks
deriving DecidableEq, Repr

/-- The word that asks for a prompt. -/
def PromptKind.word : PromptKind → String
  | .unit => "unit"
  | .edgeCases => "edge-cases"
  | .mocks => "mocks"

/-- The prompts, in the order in which messages list them. -/
def PromptKind.all : List PromptKind :=
  [.unit, .edgeCases, .mocks]

/-- What a prompt is asked for with. -/
structure PromptRequest where
  file : String
  kind : PromptKind
  framework : Option String
  function : Option String
  docs : Option String
  coverage : Int
deriving DecidableEq, Repr

/-- What the program is asked to do. -/
inductive Command where
  /-- Print the model of a file. -/
  | analyze (file : String)
  /-- Generate the tests of a file. -/
  | generate (file : String) (framework output : Option String) (dryRun : Bool)
  /-- Print what is known about the project of a file. -/
  | detect (file : String)
  /-- Print a prompt about a file. -/
  | prompt (request : PromptRequest)
deriving DecidableEq, Repr

/-! ## Values of options -/

/-- The check that a value is one of several words. -/
def oneOf (choices : List String) (value : String) : Except String Unit :=
  if choices.contains value then .ok ()
  else .error ("invalid choice: " ++ Text.quote value ++ " (choose from " ++
    ", ".intercalate (choices.map Text.quote) ++ ")")

/-- The digits of a number, between which single underscores may stand. -/
def wholeDigits? : List Char → Option (List Nat)
  | [] => none
  | [c] => (Text.digitValue? c).map ([·])
  | c :: '_' :: rest => do
    let digit ← Text.digitValue? c
    let digits ← wholeDigits? rest
    return digit :: digits
  | c :: rest => do
    let digit ← Text.digitValue? c
    let digits ← wholeDigits? rest
    return digit :: digits

/-- Whether a character separates units of information.  Such a character is blank, but may not
stand around a number. -/
def separatesUnits (c : Char) : Bool :=
  0x1C ≤ c.toNat && c.toNat ≤ 0x1F

/-- The whole number that a text writes: blanks around it, a sign, and digits of any script. -/
def wholeNumber? (text : String) : Option Int := do
  guard !(text.toList.any separatesUnits)
  let (negative, unsigned) := match Text.trim text.toList with
    | '-' :: rest => (true, rest)
    | '+' :: rest => (false, rest)
    | rest => (false, rest)
  let digits ← wholeDigits? unsigned
  if Json.maxDigits < digits.length then none
  else
    let n : Int := Text.ofDigits digits
    some (if negative then -n else n)

/-- The check that a value is a whole number. -/
def isWholeNumber (value : String) : Except String Unit :=
  if (wholeNumber? value).isSome then .ok ()
  else .error ("invalid int value: " ++ Text.quote value)

/-- Any value will do. -/
def anyValue (_ : String) : Except String Unit :=
  .ok ()

/-! ## Signatures -/

/-- The option that asks for help. -/
def helpOption : OptionSpec := ⟨["-h", "--help"], .help⟩

/-- The frameworks that can be asked for. -/
def frameworkChoices : List String := ["jest", "jasmine", "karma"]

/-- The option that asks for a framework. -/
def frameworkOption : OptionSpec := ⟨["--framework", "-f"], .value (oneOf frameworkChoices)⟩

/-- The commands. -/
def commandNames : List String := ["analyze", "generate", "detect", "prompt"]

/-- The arguments of the program. -/
def mainSignature : Signature where
  options := [helpOption, ⟨["--verbose", "-v"], .flag⟩]
  positional := .command "command" commandNames

/-- The arguments of a command that takes a file only. -/
def fileSignature : Signature where
  options := [helpOption]
  positional := .one "file"

/-- The arguments of the command that generates tests. -/
def generateSignature : Signature where
  options := [helpOption, frameworkOption, ⟨["--output", "-o"], .value anyValue⟩,
    ⟨["--dry-run"], .flag⟩]
  positional := .one "file"

/-- The arguments of the command that prints a prompt. -/
def promptSignature : Signature where
  options := [helpOption, ⟨["--kind"], .value (oneOf (PromptKind.all.map (·.word)))⟩,
    frameworkOption, ⟨["--function"], .value anyValue⟩, ⟨["--docs"], .value anyValue⟩,
    ⟨["--coverage-target"], .value isWholeNumber⟩]
  positional := .one "file"

/-! ## Reading a command -/

/-- Why a command line gives no command: help was asked for, or the arguments are wrong. -/
structure Refusal where
  help : Help
  stop : Stop
deriving DecidableEq, Repr

/-- The file that was given. -/
def Given.file (given : Given) : String :=
  (given.positional.bind List.head?).getD ""

/-- The command that the words after its name ask for, and the words that nothing takes. -/
def readCommand (name : String) (words : List String) :
    Except Refusal (Command × List String) := do
  if name = "analyze" then
    let given ← (fileSignature.read words).mapError (⟨.analyze, ·⟩)
    return (.analyze given.file, given.extras)
  else if name = "generate" then
    let given ← (generateSignature.read words).mapError (⟨.generate, ·⟩)
    return (.generate given.file (given.value? "--framework") (given.value? "--output")
      (given.has "--dry-run"), given.extras)
  else if name = "detect" then
    let given ← (fileSignature.read words).mapError (⟨.detect, ·⟩)
    return (.detect given.file, given.extras)
  else if name = "prompt" then
    let given ← (promptSignature.read words).mapError (⟨.prompt, ·⟩)
    let kind := (given.value? "--kind").bind fun word => PromptKind.all.find? (·.word == word)
    let request : PromptRequest :=
      { file := given.file
        kind := kind.getD .unit
        framework := given.value? "--framework"
        function := given.value? "--function"
        docs := given.value? "--docs"
        coverage := ((given.value? "--coverage-target").bind wholeNumber?).getD
          Prompt.defaultCoverage }
    return (.prompt request, given.extras)
  else
    match oneOf commandNames name with
    | .error message => throw ⟨.main, aboutArgument "command" message⟩
    | .ok () => throw ⟨.main, .help⟩

/-- What a command line asks for: whether to log progress, and the command if one is given. -/
structure Invocation where
  verbose : Bool
  command : Option Command
deriving DecidableEq, Repr

/-- The words with the command made explicit that a file name stands for. -/
def withDefaultCommand (words : List String) : List String :=
  match words with
  | [] => []
  | first :: _ =>
    if first.toList.head? != some '-' && !commandNames.contains first then "analyze" :: words
    else words

/-- What the words of a command line ask for. -/
def Invocation.read (words : List String) : Except Refusal Invocation := do
  let given ← (mainSignature.read (withDefaultCommand words)).mapError (⟨.main, ·⟩)
  let (command, extras) ← match given.positional with
    | some (name :: rest) => do
      let (command, extras) ← readCommand name rest
      pure (some command, extras)
    | _ => pure (none, [])
  match given.extras ++ extras with
  | [] => return ⟨given.has "--verbose", command⟩
  | unused =>
    throw ⟨.main, .wrong ("unrecognized arguments: " ++ " ".intercalate unused)⟩

end CommandLine
end TestScaffold
