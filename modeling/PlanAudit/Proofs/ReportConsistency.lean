import PlanAudit.Proofs.CheckOrder

/-! Counts, score, verdict and approval of a report tell the same story: each of them follows from how
many issues of each severity there are, however many that is. -/
namespace PlanAudit

/-- What the issues of a report cost together, without any limit. -/
def Report.penalty (report : Report) : Nat :=
  10 * report.count .critical + 5 * report.count .major + report.count .minor

/-- The score is what the penalty leaves of 100, and verdict and approval go by the penalty. -/
structure Report.Consistent (report : Report) : Prop where
  counts : report.count .critical + report.count .major + report.count .minor =
    report.issues.length
  score : (report.score.toNat : Int) =
    max 0 (100 - 10 * report.count .critical - 5 * report.count .major - report.count .minor)
  more_issues : ∀ more : List Issue,
    (Report.ofIssues (report.issues ++ more)).score ≤ report.score
  approved : report.approved = true ↔ report.verdict = .pass
  pass : report.verdict = .pass ↔ report.penalty ≤ 10
  passWithWarnings : report.verdict = .passWithWarnings ↔
    11 ≤ report.penalty ∧ report.penalty ≤ 15
  needsRevision : report.verdict = .needsRevision ↔ 16 ≤ report.penalty ∧ report.penalty ≤ 30
  fail : report.verdict = .fail ↔ 30 < report.penalty

theorem Report.counts_ofIssues (issues : List Issue) :
    (Report.ofIssues issues).count .critical + (Report.ofIssues issues).count .major +
      (Report.ofIssues issues).count .minor = issues.length := by
  unfold Report.count Report.ofIssues
  dsimp only
  induction issues with
  | nil => rfl
  | cons issue issues ih =>
    obtain ⟨severity, area, message, suggestion⟩ := issue
    cases severity <;> simp only [List.countP_cons, List.length_cons, beq_self_eq_true,
      reduceCtorEq, beq_iff_eq, if_true, if_false] <;> omega

/-- The penalties of single issues add up to the penalty of the report. -/
theorem Report.penalty_ofIssues (issues : List Issue) :
    (Report.ofIssues issues).penalty = (issues.map (·.severity.penalty)).sum := by
  unfold Report.penalty Report.count Report.ofIssues
  dsimp only
  induction issues with
  | nil => rfl
  | cons issue issues ih =>
    rw [List.map_cons, List.sum_cons, ← ih]
    obtain ⟨severity, area, message, suggestion⟩ := issue
    cases severity <;> simp only [List.countP_cons, beq_self_eq_true, reduceCtorEq, beq_iff_eq,
      if_true, if_false, Severity.penalty] <;> omega

/-- The limit of the sum lies far above the greatest score, so it never shows in a score. -/
theorem toNat_scoreOf_eq_sub_sum (issues : List Issue) :
    (scoreOf issues).toNat = 100 - (issues.map (·.severity.penalty)).sum := by
  rw [toNat_scoreOf, totalPenalty_eq]
  unfold maxScore penaltyLimit
  omega

theorem scoreOf_append_le (issues more : List Issue) : scoreOf (issues ++ more) ≤ scoreOf issues := by
  rw [UInt8.le_iff_toNat_le, toNat_scoreOf_eq_sub_sum, toNat_scoreOf_eq_sub_sum, List.map_append,
    List.sum_append]
  omega

def Verdict.Covers (score : Nat) : Verdict → Prop
  | pass => 90 ≤ score
  | passWithWarnings => 85 ≤ score ∧ score < 90
  | needsRevision => 70 ≤ score ∧ score < 85
  | fail => score < 70

theorem Verdict.ofScore_eq_iff (score : UInt8) (verdict : Verdict) :
    ofScore score = verdict ↔ verdict.Covers score.toNat := by
  unfold ofScore
  simp only [UInt8.le_iff_toNat_le, UInt8.reduceToNat]
  cases verdict <;> unfold Covers <;> split_ifs <;> simp <;> omega

theorem isApproved_iff (score : UInt8) : isApproved score = true ↔ Verdict.ofScore score = .pass := by
  rw [Verdict.ofScore_eq_iff, isApproved, decide_eq_true_iff, UInt8.le_iff_toNat_le]
  rfl

theorem Report.consistent_ofIssues (issues : List Issue) : (Report.ofIssues issues).Consistent := by
  have hscore : (scoreOf issues).toNat = 100 - (Report.ofIssues issues).penalty := by
    rw [Report.penalty_ofIssues]
    exact toNat_scoreOf_eq_sub_sum issues
  have hverdict : ∀ verdict, (Report.ofIssues issues).verdict = verdict ↔
      verdict.Covers (100 - (Report.ofIssues issues).penalty) := by
    intro verdict
    rw [← hscore]
    exact Verdict.ofScore_eq_iff (scoreOf issues) verdict
  refine ⟨counts_ofIssues issues, ?_, scoreOf_append_le issues, isApproved_iff _, ?_, ?_, ?_, ?_⟩
  · show ((scoreOf issues).toNat : Int) = _
    rw [hscore]
    unfold Report.penalty
    omega
  all_goals
    rw [hverdict]
    unfold Verdict.Covers
    omega

/-- Every list of issues, of whatever length, makes a consistent report, and so does every plan. -/
theorem Validator.reports_consistent :
    (∀ issues : List Issue, (Report.ofIssues issues).Consistent) ∧
      ∀ (validator : Validator) (plan : Plan), (validator.validate plan).Consistent :=
  ⟨Report.consistent_ofIssues, fun validator plan =>
    Report.consistent_ofIssues (validator.issues plan)⟩

end PlanAudit
