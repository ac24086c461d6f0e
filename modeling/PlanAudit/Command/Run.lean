import PlanAudit.Command.Args
import PlanAudit.Command.ReportSchema
import PlanAudit.Load
import PlanAudit.Text.Indent
import PlanAudit.Validator

/-! Running a command. -/
namespace PlanAudit

/-- What a run writes, and its exit status. -/
structure Outcome where
  status : UInt32
  stdout : String
  stderr : String
  deriving Repr, DecidableEq

/-- The finest level that is logged, by the word that asks for it. Any other word asks for nothing. -/
def LogLevel.threshold? : String → Option LogLevel
  | "error" => some .error
  | "warn" => some .warn
  | "info" => some .info
  | "debug" => some .debug
  | "trace" => some .trace
  | _ => none

/-- The entries up to a level, each on its line. -/
def logText (threshold : Option LogLevel) (entries : List LogEntry) : String :=
  let shown := entries.filter fun entry => threshold.any (entry.level.rank ≤ ·.rank)
  String.join (shown.map (·.line ++ "\n"))

/-- The causes of an error; several are numbered. -/
def causeLines : List String → List String
  | [cause] => ["    " ++ Text.indentLines "    " cause]
  | causes => causes.zipIdx.map fun (cause, n) => s!"    {n}: " ++ Text.indentLines "       " cause

/-- An error and what it goes back to. -/
def failureText (context : String) (causes : List String) : String :=
  s!"Error: {context}\n\nCaused by:\n" ++ String.join ((causeLines causes).map (· ++ "\n"))

namespace Command

def programName : String :=
  "gauge"

def versionText : String :=
  s!"{programName} 0.1.0\n"

def usage : String :=
  s!"Usage: {programName} validate [--schema <FILE>] [--compact] [--strict] <PLAN>\n" ++
    s!"       {programName} result-schema\n"

/-- What is logged about a report. -/
def reportLog (path : String) (report : Report) : List LogEntry :=
  let failed := report.failedChecks
  let entry (message : String) : LogEntry := ⟨.info, programName, message⟩
  entry s!"{path}: {report.summary}" ::
    if failed.isEmpty then [] else [entry ("Failed checklist items: " ++ ", ".intercalate failed)]

/-- The section list of the options, if they name a file for it. -/
def sectionListOf (read : FileReader) : Option String → Except LoadError (Option SectionList)
  | none => .ok none
  | some path => (SectionList.loadFile read path).map some

/-- The section list is loaded before the plan. A strict run fails if the plan is not approved. -/
def runValidate (read : FileReader) (threshold : Option LogLevel) (options : ValidateOptions) :
    Outcome :=
  match sectionListOf read options.sectionFile with
  | .error error => ⟨1, "", failureText "Failed to load schema reference" error.chain⟩
  | .ok list =>
    let setup := Setup.new.withSections list
    let (loadLog, loaded) := Plan.loadFile read options.plan
    let log := setup.log ++ loadLog
    match loaded with
    | .error error =>
      ⟨1, "", logText threshold log ++
        failureText s!"Failed to load plan {options.plan}" error.chain⟩
    | .ok plan =>
      let validator := setup.build
      let report := validator.validate plan
      let json := report.toJson
      { status := if options.strict && !report.approved then 1 else 0
        stdout := (if options.compact then json.compact else json.pretty) ++ "\n"
        stderr := logText threshold
          (log ++ validator.log plan ++ reportLog options.plan report) }

def run (read : FileReader) (threshold : Option LogLevel) : Command → Outcome
  | validate options => runValidate read threshold options
  | reportSchema => ⟨0, PlanAudit.reportSchema.pretty ++ "\n", ""⟩
  | version => ⟨0, versionText, ""⟩
  | help => ⟨0, usage, ""⟩

/-- Arguments that spell no command end with status 2. -/
def runArgs (read : FileReader) (threshold : Option LogLevel) (args : List String) : Outcome :=
  match parse args with
  | some command => run read threshold command
  | none => ⟨2, "", usage⟩

end Command

end PlanAudit
