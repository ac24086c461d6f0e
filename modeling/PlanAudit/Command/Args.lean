/-! The arguments of the command line. -/
namespace PlanAudit

/-- How a plan is validated from the command line. -/
structure ValidateOptions where
  plan : String
  sectionFile : Option String
  compact : Bool
  strict : Bool
  deriving Repr, DecidableEq

inductive Command where
  | validate (options : ValidateOptions)
  | reportSchema
  | version
  | help
  deriving Repr, DecidableEq

namespace Command

/-- What the arguments read so far have given. -/
structure Given where
  plan : Option String
  sectionFile : Option String
  compact : Bool
  strict : Bool

namespace Given

def nothing : Given :=
  ⟨none, none, false, false⟩

/-- The plan is given once and its path is not empty. -/
def withPlan (given : Given) (path : String) : Option Given :=
  if given.plan.isSome || path.isEmpty then none else some { given with plan := some path }

def withSectionFile (given : Given) (path : String) : Option Given :=
  if given.sectionFile.isSome || path.isEmpty then none
  else some { given with sectionFile := some path }

def withCompact (given : Given) : Option Given :=
  if given.compact then none else some { given with compact := true }

def withStrict (given : Given) : Option Given :=
  if given.strict then none else some { given with strict := true }

def options? (given : Given) : Option ValidateOptions :=
  given.plan.map fun plan => ⟨plan, given.sectionFile, given.compact, given.strict⟩

end Given

/-- A hyphen alone is a value, and so is all that does not start with one. -/
def isOption (arg : String) : Bool :=
  arg.startsWith "-" && arg != "-"

/-- The value that is joined to the option for the section file by an equals sign. -/
def sectionFileValue? (arg : String) : Option String :=
  ("--schema=".toList.isPrefixOf? arg.toList).map String.ofList

def asksForHelp (arg : String) : Bool :=
  arg == "--help" || arg.startsWith "-h"

/-- All arguments are plans. -/
def readPlans (given : Given) : List String → Option Command
  | [] => given.options?.map validate
  | arg :: args => (given.withPlan arg).bind (readPlans · args)

/-- Options stand before or after the plan, each at most once. Behind two hyphens there are none. -/
def readValidate (given : Given) : List String → Option Command
  | [] => given.options?.map validate
  | "--" :: args => readPlans given args
  | "--compact" :: args => given.withCompact.bind (readValidate · args)
  | "--strict" :: args => given.withStrict.bind (readValidate · args)
  | "--schema" :: path :: args =>
    if isOption path then none else (given.withSectionFile path).bind (readValidate · args)
  | arg :: args =>
    if asksForHelp arg then some help
    else match sectionFileValue? arg with
      | some path => (given.withSectionFile path).bind (readValidate · args)
      | none => if isOption arg then none else (given.withPlan arg).bind (readValidate · args)

def readReportSchema : List String → Option Command
  | [] => some reportSchema
  | ["--"] => some reportSchema
  | arg :: _ => if asksForHelp arg then some help else none

/-- Help is given on the whole or on one of the commands. -/
def readHelp : List String → Option Command
  | [] => some help
  | [name] => if ["validate", "v", "result-schema", "help"].contains name then some help else none
  | _ => none

/-- The command that the arguments spell, if they spell one. -/
def parse : List String → Option Command
  | [] => none
  | "validate" :: args => readValidate .nothing args
  | "v" :: args => readValidate .nothing args
  | "result-schema" :: args => readReportSchema args
  | "help" :: args => readHelp args
  | arg :: _ =>
    if arg = "--version" || arg.startsWith "-V" then some version
    else if asksForHelp arg then some help
    else none

end Command

end PlanAudit
