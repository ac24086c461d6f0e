import PlanAudit.FileTree
import PlanAudit.Json.Reader
import PlanAudit.LogEntry
import PlanAudit.SectionList
import PlanAudit.Text.Blank

/-! Loading plans and section lists from text and from files. -/
namespace PlanAudit

/-- A kind of value with its article. -/
def Json.kindText : Json → String
  | .null => "null"
  | .bool _ => "a boolean"
  | .integer _ => "a number"
  | .float _ => "a number"
  | .string _ => "a string"
  | .array _ => "an array"
  | .object _ => "an object"

/-- Why a value is no plan. -/
inductive PlanError where
  | empty
  | absent
  | notObject (found : Json)
  deriving Repr

def PlanError.message : PlanError → String
  | empty => "document is empty"
  | absent => "document is absent"
  | notObject found => s!"root must be a JSON object, found {found.kindText}"

inductive LoadError where
  | parse (error : Json.ReadError)
  | plan (error : PlanError)
  | sectionList (error : SectionListError)
  | file (path : String) (failure : ReadFailure)
  deriving Repr

namespace LoadError

def message : LoadError → String
  | parse error => s!"Failed to parse plan document: {error.message}"
  | plan error => s!"Invalid plan document: {error.message}"
  | sectionList error => s!"Invalid schema reference: {error.message}"
  | file path failure => s!"File system error at path '{path}': {failure.message}"

/-- The error that this one goes back to. -/
def cause? : LoadError → Option String
  | parse error => some error.message
  | file _ failure => some failure.message
  | _ => none

/-- The message and what is behind it. -/
def chain (error : LoadError) : List String :=
  error.message :: error.cause?.toList

end LoadError

section

variable [Json.FloatFormat]

def readJson (text : String) : Except LoadError Json :=
  (Json.read text).mapError .parse

namespace Plan

def ofJson : Json → Except LoadError Plan
  | .object members => .ok ⟨members⟩
  | .null => .error (.plan .absent)
  | value => .error (.plan (.notObject value))

/-- A text of blanks only is refused before it is read as JSON. -/
def load (text : String) : Except LoadError Plan := do
  if text.toList.all Text.isBlank then .error (.plan .empty)
  else ofJson (← readJson text)

/-- A plan from a file, and what is logged on the way. -/
def loadFile (read : FileReader) (path : String) : List LogEntry × Except LoadError Plan :=
  match read.text path with
  | .error failure => ([], .error (.file path failure))
  | .ok text =>
    ([⟨.debug, "gauge_core::document", s!"Loaded plan document from {path}"⟩], load text)

end Plan

namespace SectionList

def load (text : String) : Except LoadError SectionList := do
  (ofJson (← readJson text)).mapError .sectionList

def loadFile (read : FileReader) (path : String) : Except LoadError SectionList :=
  match read.text path with
  | .error failure => .error (.file path failure)
  | .ok text => load text

end SectionList

end

end PlanAudit
