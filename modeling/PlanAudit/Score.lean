import PlanAudit.Issue

/-! The score of a list of issues, and what it means for the plan. -/
namespace PlanAudit

inductive Verdict where
  | pass
  | passWithWarnings
  | needsRevision
  | fail
  deriving Repr, DecidableEq

namespace Verdict

def all : List Verdict :=
  [pass, passWithWarnings, needsRevision, fail]

def name : Verdict → String
  | pass => "PASS"
  | passWithWarnings => "PASS_WITH_WARNINGS"
  | needsRevision => "NEEDS_REVISION"
  | fail => "FAIL"

/-- The verdict that a text names, in letters of either case. -/
def parse (text : String) : Except UnknownName Verdict :=
  match all.find? (·.name.toList == Text.upper text.toList) with
  | some verdict => .ok verdict
  | none => .error (.verdict text)

def ofJson : Json.Decoder Verdict :=
  Json.asVariant (all.map fun verdict => (verdict.name, verdict))

def ofScore (score : UInt8) : Verdict :=
  if 90 ≤ score then pass
  else if 85 ≤ score then passWithWarnings
  else if 70 ≤ score then needsRevision
  else fail

end Verdict

/-- Penalties are summed up to this limit. -/
def penaltyLimit : Nat :=
  4294967295

def totalPenalty (issues : List Issue) : Nat :=
  issues.foldl (fun total issue => min (total + issue.severity.penalty) penaltyLimit) 0

def maxScore : Nat :=
  100

/-- A number that fits a byte. -/
def byteOf? (n : Nat) : Option UInt8 :=
  if n < 256 then some n.toUInt8 else none

/-- What the penalties leave of the greatest score, which stands also for a rest beyond a byte. -/
def scoreOf (issues : List Issue) : UInt8 :=
  (byteOf? (maxScore - totalPenalty issues)).getD maxScore.toUInt8

def isApproved (score : UInt8) : Bool :=
  90 ≤ score

end PlanAudit
