import Mathlib.Algebra.GroupWithZero.Nat
import PlanAudit.Score

/-! What issues cost. -/
namespace PlanAudit

/-- The sum of the penalties, as far as it is counted. -/
theorem totalPenalty_eq (issues : List Issue) :
    totalPenalty issues = min (issues.map (·.severity.penalty)).sum penaltyLimit := by
  have hfrom : ∀ (issues : List Issue) (total : Nat), total ≤ penaltyLimit →
      issues.foldl (fun total issue => min (total + issue.severity.penalty) penaltyLimit) total =
        min (total + (issues.map (·.severity.penalty)).sum) penaltyLimit := by
    intro issues
    induction issues with
    | nil =>
      intro total htotal
      exact (Nat.min_eq_left htotal).symm
    | cons issue issues ih =>
      intro total _
      rw [List.foldl_cons, ih _ (Nat.min_le_right _ _), List.map_cons, List.sum_cons]
      omega
  rw [totalPenalty, hfrom issues 0 (Nat.zero_le _), Nat.zero_add]

theorem Severity.penalty_pos (severity : Severity) : 0 < severity.penalty := by
  cases severity <;> decide

private theorem totalPenalty_eq_zero_iff (issues : List Issue) :
    totalPenalty issues = 0 ↔ issues = [] := by
  cases issues with
  | nil => simp [totalPenalty]
  | cons issue issues =>
    have hpenalty := issue.severity.penalty_pos
    have hlimit : 0 < penaltyLimit := by decide
    rw [totalPenalty_eq, List.map_cons, List.sum_cons]
    simp only [reduceCtorEq, iff_false]
    omega

/-- What is left of the greatest score always fits a byte. -/
theorem toNat_scoreOf (issues : List Issue) :
    (scoreOf issues).toNat = maxScore - totalPenalty issues := by
  have hfits : maxScore - totalPenalty issues < 256 := by
    unfold maxScore
    omega
  rw [scoreOf, byteOf?, if_pos hfits, Option.getD_some, Nat.toUInt8_eq, UInt8.toNat_ofNat']
  exact Nat.mod_eq_of_lt hfits

/-- Every issue costs something. -/
theorem scoreOf_eq_maxScore_iff (issues : List Issue) :
    (scoreOf issues).toNat = maxScore ↔ issues = [] := by
  rw [← totalPenalty_eq_zero_iff, toNat_scoreOf]
  unfold maxScore
  omega

end PlanAudit
