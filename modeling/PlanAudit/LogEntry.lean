import PlanAudit.Text.Indent

/-! What a run reports about itself. -/
namespace PlanAudit

inductive LogLevel where
  | error
  | warn
  | info
  | debug
  | trace
  deriving Repr, DecidableEq

namespace LogLevel

def name : LogLevel → String
  | error => "ERROR"
  | warn => "WARN"
  | info => "INFO"
  | debug => "DEBUG"
  | trace => "TRACE"

/-- The finer the level, the greater the number. -/
def rank : LogLevel → Nat
  | error => 1
  | warn => 2
  | info => 3
  | debug => 4
  | trace => 5

end LogLevel

/-- The origin is the part of the program that speaks. -/
structure LogEntry where
  level : LogLevel
  origin : String
  message : String
  deriving Repr, DecidableEq

namespace LogEntry

/-- Level and message alone. -/
def brief (entry : LogEntry) : String :=
  s!"{entry.level.name}: {entry.message}"

/-- A line of the log, with the level in five columns. Further lines of the message are indented. -/
def line (entry : LogEntry) : String :=
  let level := entry.level.name ++ String.ofList (List.replicate (5 - entry.level.name.length) ' ')
  s!"[{level} {entry.origin}] " ++ Text.indentLines "    " entry.message

end LogEntry

end PlanAudit
