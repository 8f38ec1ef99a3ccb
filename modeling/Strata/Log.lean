/-!
# Log records

What a run tells about itself besides its result.
-/

namespace Strata

/-- How important a record is, in ascending order. -/
inductive LogLevel where
  | debug
  | warning
  | error
  deriving Repr, DecidableEq

/-- The name of a level. -/
def LogLevel.name : LogLevel → String
  | .debug => "DEBUG"
  | .warning => "WARNING"
  | .error => "ERROR"

/-- The rank of a level. -/
def LogLevel.rank : LogLevel → Nat
  | .debug => 0
  | .warning => 1
  | .error => 2

/-- The part of the program that a record comes from. -/
inductive LogSource where
  | settings
  | syntaxTree
  | run
  deriving Repr, DecidableEq

/-- The name of a source in the log. -/
def LogSource.name : LogSource → String
  | .settings => "layerlint.config"
  | .syntaxTree => "layerlint.syntax"
  | .run => "layerlint.linter"

/-- One record. -/
structure LogRecord where
  level : LogLevel
  source : LogSource
  message : String
  deriving Repr, DecidableEq

/-- The record as a line. -/
def LogRecord.line (r : LogRecord) : String :=
  r.level.name ++ " " ++ r.source.name ++ ": " ++ r.message

end Strata
