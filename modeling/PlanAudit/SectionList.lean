import PlanAudit.Json.Decode
import PlanAudit.Plan.Basic

/-! Lists of required sections that come from outside. -/
namespace PlanAudit

structure SectionList where
  names : List String
  deriving Repr, DecidableEq

/-- Why a value gives no list of sections. -/
inductive SectionListError where
  | noList
  | badList (mismatch : Json.Mismatch)
  | emptyList
  deriving Repr

def SectionListError.message : SectionListError → String
  | noList => "expected `required_sections` or a JSON Schema listing required sections"
  | badList mismatch => s!"section list: {mismatch.message}"
  | emptyList => "required section list is empty"

namespace SectionList

/-- The list itself, or the one that a JSON Schema of plans requires. -/
def find? (value : Json) : Option Json :=
  (value.get? "required_sections").or
    ((value.get? "properties").bind fun properties =>
      (properties.get? sectionsKey).bind fun sections => sections.get? "required")

def ofJson (value : Json) : Except SectionListError SectionList :=
  match find? value with
  | none => .error .noList
  | some list =>
    match Json.asList Json.asString list with
    | .error mismatch => .error (.badList mismatch)
    | .ok [] => .error .emptyList
    | .ok names => .ok ⟨names⟩

/-- The names that are not built in. -/
def extra (list : SectionList) : List String :=
  list.names.filter (!builtInSections.contains ·)

/-- The built-in names that are not in the list. -/
def missing (list : SectionList) : List String :=
  builtInSections.filter (!list.names.contains ·)

def diverges (list : SectionList) : Bool :=
  !list.extra.isEmpty || !list.missing.isEmpty

end SectionList

end PlanAudit
