import PlanAudit.Finding
import PlanAudit.Vocabulary

/-! Success criteria are measurable, and the tests cover edge cases. -/
namespace PlanAudit.Rule

/-- How often a pattern matches in the text of a section. -/
def countIn (p : Pattern) (content : Json) : Nat :=
  p.count content.chars

/-- A section that is missing is not judged. -/
def vagueCriteria (plan : Plan) : List Finding :=
  match plan.section? criteriaKey with
  | none => []
  | some content =>
    let count := countIn Vocabulary.measurable content
    if count < leastMeasurable then [.vagueCriteria count] else []

def fewEdgeCases (plan : Plan) : List Finding :=
  match plan.section? testingKey with
  | none => []
  | some content =>
    let count := countIn Vocabulary.edgeCases content
    if count < leastEdgeCases then [.fewEdgeCases count] else []

end PlanAudit.Rule
