import TestScaffold.Extract.Basic
import TestScaffold.Project.Detection
import TestScaffold.Project.TestPath
import TestScaffold.Suite.Synthesis

/-!
# Failures

Everything that can stop an analysis, a generation or a prompt.  Most failures
are reported to the user in a message; those that only a malformed syntax tree
or manifest can cause end the run.
-/

namespace TestScaffold

/-- Why a run stops. -/
inductive Failure where
  /-- A file cannot be read or written. -/
  | file (error : FileError)
  /-- No model can be extracted. -/
  | extraction (fault : Extract.Fault)
  /-- No suite can be synthesised. -/
  | synthesis (failure : Suite.Failure)
  /-- The project cannot be detected. -/
  | detection (failure : Project.Failure)
  /-- A path without a name has no test file. -/
  | emptyName (path : Path)
  /-- The function that a prompt is about does not exist. -/
  | noFunction (name : Option String) (filePath : String)
deriving DecidableEq, Repr

namespace Failure

/-- The message of a failure that is reported, and none for one that ends the run. -/
def report? : Failure → Option String
  | file error => some error.message
  | extraction (.unencodable error) => some error.message
  | extraction (.invalid error) => some error.message
  | synthesis failure => some failure.message
  | noFunction name filePath =>
    let target := match name with
      | some name => if name.isEmpty then "functions" else "function '" ++ name ++ "'"
      | none => "functions"
    some ("No " ++ target ++ " found in " ++ filePath)
  | extraction _ | detection _ | emptyName _ => none

/-- Whether a failure is a syntax error of the source. -/
def isSyntaxError : Failure → Bool
  | extraction (.unencodable _) => true
  | extraction (.invalid _) => true
  | _ => false

/-- Whether a failure comes from reading or writing a file. -/
def isFileError : Failure → Bool
  | file _ => true
  | _ => false

end Failure

end TestScaffold
