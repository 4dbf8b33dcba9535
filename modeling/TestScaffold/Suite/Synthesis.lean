import TestScaffold.Log
import TestScaffold.Suite.Render

/-!
# Synthesis

A model becomes the text of a test file, after a check that its exports and its
exported declarations correspond name by name.

Main results:

- Theorem `Suite.synthesize_ok`: the text is that of the chosen convention.
-/

namespace TestScaffold
namespace Suite

/-- Why no suite is synthesised. -/
inductive Failure where
  /-- No convention has this name. -/
  | unsupported (framework : String)
  /-- An export is matched by another number of declarations than of entries. -/
  | mismatched (name filePath : String) (declared listed : Nat)
  /-- An exported declaration has no export entry. -/
  | unlisted (name filePath : String)
  /-- A function has no name. -/
  | unnamed (filePath : String)
deriving DecidableEq, Repr

/-- The message of a failure. -/
def Failure.message : Failure → String
  | unsupported framework => Convention.unsupportedMessage framework
  | mismatched name filePath declared listed =>
    "Export '" ++ name ++ "' in " ++ filePath ++ " has " ++ toString declared ++
      " matching exported declarations, expected " ++ toString listed
  | unlisted name filePath =>
    "Exported declaration '" ++ name ++ "' in " ++ filePath ++ " has no export entry"
  | unnamed filePath => "Unnamed function in " ++ filePath

/-- The names of the exported declarations: functions first, then classes. -/
def declaredNames (model : SourceModel) : List String :=
  model.exportedFunctions.map (·.name) ++ model.exportedClasses.map (·.name)

/-- The names of the export entries. -/
def listedNames (model : SourceModel) : List String :=
  model.exports.map (·.name)

/-- Checks that exports and exported declarations correspond, and that functions have names. -/
def validate (model : SourceModel) : Except Failure Unit :=
  let declared := declaredNames model
  let listed := listedNames model
  match listed.find? fun name => declared.count name != listed.count name with
  | some name =>
    .error (.mismatched name model.filePath (declared.count name) (listed.count name))
  | none =>
    match declared.find? fun name => !listed.contains name with
    | some name => .error (.unlisted name model.filePath)
    | none =>
      if model.functions.any (·.name.isEmpty) then .error (.unnamed model.filePath) else .ok ()

/-- A test file in its two parts. -/
structure TestFile where
  imports : String
  suiteBody : String
deriving DecidableEq, Repr

/-- The text of a test file. -/
def TestFile.combined (file : TestFile) : String :=
  file.imports ++ "\n\n" ++ file.suiteBody

/-- The test file for a model in the convention of a framework. -/
def synthesize (model : SourceModel) (framework : String) : Except Failure TestFile :=
  match Convention.ofFramework? framework with
  | none => .error (.unsupported framework)
  | some convention => do
    validate model
    return ⟨importLine model, suiteBody convention model⟩

/-- The text of the test file for a model. -/
def testCode (model : SourceModel) (framework : String) : Except Failure String :=
  (·.combined) <$> synthesize model framework

/-- What a synthesis that succeeds logs. -/
def synthesisLog (model : SourceModel) (framework : String) : LogLine :=
  .info ("Synthesized " ++ framework ++ " tests for " ++ model.filePath ++ ": " ++
    toString model.exportedFunctions.length ++ " functions, " ++
    toString model.exportedClasses.length ++ " classes")

/-- The text is that of the chosen convention. -/
theorem synthesize_ok {model : SourceModel} {framework : String} {convention : Convention}
    (hc : Convention.ofFramework? framework = some convention) (hv : validate model = .ok ()) :
    synthesize model framework = .ok ⟨importLine model, suiteBody convention model⟩ := by
  simp only [synthesize, hc, hv]
  rfl

end Suite
end TestScaffold
