import PlanAudit.Plan.Basic

/-! The two forms of the phases section. -/
namespace PlanAudit

/-- Phases are the items of an array, or the members of an object whose keys start with `phase_`. -/
inductive PhaseLayout where
  | array (phases : List Json)
  | keyed (phases : List (String × Json))
  | absent

/-- Two to the power 64. -/
def wordLimit : Nat :=
  18446744073709551616

/-- A decimal number below two to the power 64; a plus sign may stand before it. -/
def natOfText? (text : List Char) : Option Nat :=
  let digits :=
    match text with
    | '+' :: rest => rest
    | rest => rest
  if digits.isEmpty || !digits.all Char.isDigit then none else
  let n := digits.foldl (fun n c => 10 * n + (c.toNat - '0'.toNat)) 0
  if n < wordLimit then some n else none

/-- The part of a phase key behind `phase_`. -/
def phaseSuffix? (key : String) : Option (List Char) :=
  "phase_".toList.isPrefixOf? key.toList

/-- Phases whose number is missing or too large come last. -/
def phaseRank (key : String) : Nat :=
  ((phaseSuffix? key).bind natOfText?).getD (wordLimit - 1)

/-- By number, and by key where the numbers are equal. -/
def phaseLe (a b : String × Json) : Bool :=
  phaseRank a.1 < phaseRank b.1 || (phaseRank a.1 == phaseRank b.1 && !Text.before b.1 a.1)

namespace PhaseLayout

/-- The members that are phases, in their order. -/
def keyedPhases (members : Json.Members) : List (String × Json) :=
  (members.filter fun (key, value) => (phaseSuffix? key).isSome && value.isObject).mergeSort phaseLe

def ofMembers (members : Json.Members) : PhaseLayout :=
  match (members.get? "phases").bind Json.array? with
  | some phases => array phases
  | none =>
    match keyedPhases members with
    | [] => absent
    | phases => keyed phases

def ofSection : Option Json → PhaseLayout
  | some (.array phases) => array phases
  | some (.object members) => ofMembers members
  | _ => absent

def phases : PhaseLayout → List Json
  | array phases => phases
  | keyed phases => phases.map (·.2)
  | absent => []

end PhaseLayout

def Plan.phaseLayout (plan : Plan) : PhaseLayout :=
  .ofSection (plan.section? phasesKey)

end PlanAudit
