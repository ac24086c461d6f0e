import PlanAudit.Load
import PlanAudit.Validator

/-! A session: a setup that can be changed, and the validator that was built last. -/
namespace PlanAudit

structure Session where
  setup : Setup
  validator : Option Validator

inductive SessionError where
  | noValidator
  | load (error : LoadError)

namespace SessionError

def message : SessionError → String
  | noValidator => "no validator built"
  | load error => error.message

end SessionError

namespace Session

def new : Session :=
  ⟨.new, none⟩

/-- Give the setup a section list, read from text. -/
def withSections (session : Session) (text : String) :
    Except LoadError (Session × SectionList) := do
  let list ← SectionList.load text
  return ({ session with setup := session.setup.withSections (some list) }, list)

/-- A fresh setup; the validator stays. -/
def reset (session : Session) : Session :=
  { session with setup := .new }

/-- The setup is kept, so that it can be built again. -/
def build (session : Session) : Session :=
  { session with validator := some session.setup.build }

/-- Without a validator the text is not looked at. -/
def validate (session : Session) (text : String) : Except SessionError Report :=
  match session.validator with
  | none => .error .noValidator
  | some validator => (Plan.load text).mapError .load |>.map validator.validate

end Session

end PlanAudit
