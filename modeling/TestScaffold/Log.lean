/-!
# Log lines

What the program reports about its progress, apart from its results.  Plain
progress is shown on request only; warnings and errors always.

Main results:

- Theorem `Log.shown_verbose`: on request every line is shown.
-/

namespace TestScaffold

/-- How much a log line matters. -/
inductive LogLevel where
  | info
  | warning
  | error
deriving DecidableEq, Repr

/-- The word that marks a level. -/
def LogLevel.word : LogLevel → String
  | .info => "INFO"
  | .warning => "WARNING"
  | .error => "ERROR"

/-- A line of the log. -/
structure LogLine where
  level : LogLevel
  message : String
deriving DecidableEq, Repr

namespace LogLine

/-- A line about progress. -/
def info (message : String) : LogLine := ⟨.info, message⟩

/-- A line about something that may be wrong. -/
def warning (message : String) : LogLine := ⟨.warning, message⟩

/-- A line about a failure. -/
def error (message : String) : LogLine := ⟨.error, message⟩

/-- A log line as it is printed. -/
def render (line : LogLine) : String :=
  line.level.word ++ ": " ++ line.message

end LogLine

/-- The lines of a log, in order. -/
abbrev Log := List LogLine

namespace Log

/-- The lines that are shown. -/
def shown (verbose : Bool) (log : Log) : Log :=
  log.filter fun line => verbose || line.level != .info

@[simp]
theorem shown_verbose (log : Log) : log.shown true = log := by
  simp [shown]

end Log

end TestScaffold
