import Mathlib.Algebra.BigOperators.Group.List.Basic
import PlanAudit.Proofs.RaisedIssues
import PlanAudit.Proofs.Score
import PlanAudit.Validator

/-! Checks neither see nor touch the issues of other checks, and a report does not depend on the order
in which its issues were raised. -/
namespace PlanAudit

namespace Check

variable (required : List String) (plan : Plan)

theorem run_eq_append (issues : List Issue) (check : Check) :
    run required plan issues check = issues ++ run required plan [] check := by
  rw [run_eq, run_eq, List.nil_append]

theorem foldl_run (checks : List Check) (issues : List Issue) :
    checks.foldl (run required plan) issues =
      issues ++ checks.flatMap (run required plan []) := by
  induction checks generalizing issues with
  | nil => simp
  | cons check checks ih =>
    rw [List.foldl_cons, ih, run_eq_append, List.flatMap_cons, List.append_assoc]

theorem foldl_run_perm {checks order : List Check} (h : checks.Perm order) (issues : List Issue) :
    (checks.foldl (run required plan) issues).Perm (order.foldl (run required plan) issues) := by
  rw [foldl_run, foldl_run]
  exact (h.flatMap_right _).append_left issues

end Check

/-- Only which issues there are decides what is passed, not how often or in which order. -/
theorem Checklist.project_congr {issues others : List Issue}
    (h : ∀ issue, issue ∈ issues ↔ issue ∈ others) : project issues = project others := by
  have hpassed : passed issues = passed others := by
    funext item
    rw [passed, passed, Bool.eq_iff_iff, Bool.not_eq_true', Bool.not_eq_true',
      List.any_eq_false, List.any_eq_false]
    exact forall_congr' fun issue => by rw [h issue]
  rw [project, project, hpassed]

theorem totalPenalty_perm {issues others : List Issue} (h : issues.Perm others) :
    totalPenalty issues = totalPenalty others := by
  rw [totalPenalty_eq, totalPenalty_eq, (h.map _).sum_eq]

/-- Issues in another order make the same report, apart from the list itself. -/
theorem Report.ofIssues_perm {issues others : List Issue} (h : issues.Perm others) :
    Report.ofIssues issues = { Report.ofIssues others with issues := issues } := by
  have hscore : scoreOf issues = scoreOf others := by
    rw [scoreOf, scoreOf, totalPenalty_perm h]
  have hlist : Checklist.project issues = Checklist.project others :=
    Checklist.project_congr fun _ => h.mem_iff
  simp only [ofIssues, hscore, hlist]

/-- Each check adds its own issues to those it is given, so checks that run in another order change
the order of the issues and nothing else. -/
theorem Validator.checks_independent (validator : Validator) (plan : Plan) :
    (∀ (check : Check) (issues : List Issue),
      Check.run validator.required plan issues check =
        issues ++ Check.run validator.required plan [] check) ∧
    (∀ (checks : List Check) (issues : List Issue),
      checks.foldl (Check.run validator.required plan) issues =
        issues ++ checks.flatMap (Check.run validator.required plan [])) ∧
    ∀ order : List Check, order.Perm Check.all →
      let report := Report.ofIssues (order.foldl (Check.run validator.required plan) [])
      report.issues.Perm (validator.validate plan).issues ∧
        report.score = (validator.validate plan).score ∧
        report.verdict = (validator.validate plan).verdict ∧
        report.approved = (validator.validate plan).approved ∧
        report.checklist = (validator.validate plan).checklist := by
  refine ⟨fun check issues => Check.run_eq_append _ plan issues check,
    fun checks issues => Check.foldl_run _ plan checks issues, ?_⟩
  intro order horder
  have hperm := Check.foldl_run_perm validator.required plan horder []
  simp only [Report.ofIssues_perm hperm]
  exact ⟨hperm, rfl, rfl, rfl, rfl⟩

/-- The checks can run from the last to the first. -/
theorem Validator.reversed_checks_same_score :
    Check.all.reverse ≠ Check.all ∧
      (Report.ofIssues (Check.all.reverse.foldl
        (Check.run builtInSections ⟨[("notes", .string "TODO, maybe")]⟩) [])).score =
      ((Validator.mk builtInSections).validate ⟨[("notes", .string "TODO, maybe")]⟩).score :=
  ⟨by decide, ((checks_independent _ _).2.2 _ (List.reverse_perm Check.all)).2.1⟩

end PlanAudit
