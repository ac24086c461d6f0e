import PlanAudit.Proofs.AgreeingList
import PlanAudit.Proofs.PhaseForms

/-! What the list of required sections decides: which sections are reported as missing, and nothing
else. A longer list never leads to a better score. -/
namespace PlanAudit

def missingSectionPhrase : String :=
  "Missing required section"

def Report.issuesNotOpening (report : Report) (phrase : String) : List Issue :=
  report.issues.filter fun issue => !phrase.toList.isPrefixOf issue.message.toList

namespace Finding

def saysSectionMissing (finding : Finding) : Bool :=
  missingSectionPhrase.toList.isPrefixOf finding.message.toList

theorem saysSectionMissing_missingSection (name : String) :
    (missingSection name).saysSectionMissing = true := by
  rw [saysSectionMissing, List.isPrefixOf_iff_prefix]
  exact prefix_toList_append _ (by decide)

/-- No other finding says so: it would fail the check of the sections, and the only other finding to
do that has another message, that there is no object for the sections. -/
theorem eq_missingSection_of_saysSectionMissing {finding : Finding} (hregular : finding.Regular)
    (h : finding.saysSectionMissing = true) : ∃ name, finding = missingSection name := by
  rw [saysSectionMissing, List.isPrefixOf_iff_prefix] at h
  obtain ⟨item, hitem⟩ : ∃ item, Checklist.item? "all_sections_present" = some item := ⟨_, rfl⟩
  have hfails : item.failedByMessage finding.message = true :=
    Checklist.sections_failed_by_opening hitem h
  have hcheck : "all_sections_present" ∈ finding.failedChecks := by
    rw [← Checklist.name_of_item? hitem]
    exact (Checklist.failed_iff (Checklist.mem_of_item? hitem) hregular).1 hfails
  cases finding with
  | missingSection name => exact ⟨name, rfl⟩
  | missingContainer => exact absurd h (by decide)
  | missingWorkorderField field =>
    rw [failedChecks] at hcheck
    split_ifs at hcheck <;> simp at hcheck
  | _ => simp [failedChecks] at hcheck

end Finding

namespace Validator

variable (plan : Plan) (required : List String)

/-- The findings that do not depend on the list are not about missing sections. -/
theorem saysSectionMissing_of_mem_otherFindings {finding : Finding}
    (h : finding ∈ otherFindings plan) : finding.saysSectionMissing = false := by
  have hmem : finding ∈ (Validator.mk []).findings plan :=
    (findings_perm ⟨[]⟩ plan).mem_iff.2 (List.mem_append_right _ h)
  rw [Bool.eq_false_iff]
  intro hsays
  obtain ⟨name, rfl⟩ :=
    Finding.eq_missingSection_of_saysSectionMissing (regular_of_mem_findings _ plan hmem) hsays
  -- Where nothing is required, the rule on sections can miss the object for them, but no section.
  have hrule : (Checklist.containerChecks, Rule.missingSections [] plan) ∈
      (Validator.mk []).rules plan :=
    List.mem_cons_of_mem _ List.mem_cons_self
  have hcheck : "all_sections_present" ∈ Checklist.containerChecks := by decide
  have hfound := mem_rule_of_failed _ plan hrule hcheck hmem List.mem_cons_self
  unfold Rule.missingSections at hfound
  split at hfound <;> simp at hfound

/-- The issues that do not say so are the same whatever is required, and in the same order. -/
theorem issuesNotOpening_missingSectionPhrase :
    ((Validator.mk required).validate plan).issuesNotOpening missingSectionPhrase =
      (otherFindings plan).map Finding.toIssue := by
  have hothers : (otherFindings plan).filter (!·.saysSectionMissing) = otherFindings plan := by
    refine List.filter_eq_self.2 fun finding hfinding => ?_
    rw [saysSectionMissing_of_mem_otherFindings plan hfinding, Bool.not_false]
  have habsent : ((plan.absentSections required).map Finding.missingSection).filter
      (!·.saysSectionMissing) = [] := by
    refine List.filter_eq_nil_iff.2 fun finding hfinding => ?_
    obtain ⟨name, _, rfl⟩ := List.mem_map.1 hfinding
    rw [Finding.saysSectionMissing_missingSection, Bool.not_true]
    exact Bool.false_ne_true
  have hfindings : ((Validator.mk required).findings plan).filter (!·.saysSectionMissing) =
      otherFindings plan := by
    rw [findings_eq_append, missingSections_eq, ← hothers, otherFindings]
    simp only [List.filter_append, habsent, List.nil_append, List.append_assoc]
  show ((Validator.mk required).issues plan).filter _ = _
  rw [issues_eq_map_findings, List.filter_map]
  exact congrArg (List.map Finding.toIssue) hfindings

/-- One issue says so for each required section that is absent, in the order of the list. -/
theorem issuesOpening_missingSectionPhrase :
    ((Validator.mk required).validate plan).issuesOpening missingSectionPhrase =
      (plan.absentSections required).map (Finding.toIssue ∘ .missingSection) := by
  have hothers : (otherFindings plan).filter Finding.saysSectionMissing = [] := by
    refine List.filter_eq_nil_iff.2 fun finding hfinding => ?_
    rw [saysSectionMissing_of_mem_otherFindings plan hfinding]
    exact Bool.false_ne_true
  have habsent : ((plan.absentSections required).map Finding.missingSection).filter
      Finding.saysSectionMissing = (plan.absentSections required).map Finding.missingSection := by
    refine List.filter_eq_self.2 fun finding hfinding => ?_
    obtain ⟨name, _, rfl⟩ := List.mem_map.1 hfinding
    exact Finding.saysSectionMissing_missingSection name
  have hfindings : ((Validator.mk required).findings plan).filter Finding.saysSectionMissing =
      (plan.absentSections required).map Finding.missingSection := by
    rw [otherFindings, List.filter_append, List.filter_append, List.append_eq_nil_iff,
      List.append_eq_nil_iff] at hothers
    obtain ⟨⟨hmetadata, hcontainer⟩, hrest⟩ := hothers
    rw [findings_eq_append, missingSections_eq, List.filter_append, List.filter_append,
      List.filter_append, hmetadata, habsent, hcontainer, hrest, List.nil_append, List.append_nil,
      List.append_nil]
  show ((Validator.mk required).issues plan).filter _ = _
  rw [issues_eq_map_findings, List.filter_map, ← List.map_map]
  exact congrArg (List.map Finding.toIssue) hfindings

/-- Each required section that is absent is paid for. -/
theorem score_le_of_sublist {required others : List String} (h : required.Sublist others) :
    ((Validator.mk others).validate plan).score ≤
      ((Validator.mk required).validate plan).score := by
  have hlength : (plan.absentSections required).length ≤ (plan.absentSections others).length := by
    unfold Plan.absentSections
    cases plan.sections? with
    | none => exact Nat.le_refl _
    | some sections => exact (h.filter _).length_le
  rw [UInt8.le_iff_toNat_le]
  simp only [validate, Report.ofIssues, toNat_scoreOf, totalPenalty_issues]
  omega

/-- Only the first check sees the list, so to require more sections never leads to a better score.
-/
theorem required_list_reaches_section_issues_only (plan : Plan) (required others : List String) :
    let report := (Validator.mk required).validate plan
    let other := (Validator.mk others).validate plan
    report.issuesNotOpening missingSectionPhrase = other.issuesNotOpening missingSectionPhrase ∧
    (report.issuesOpening missingSectionPhrase =
      match plan.sections? with
      | none => []
      | some sections => (required.filter (!sections.has ·)).map fun name =>
          ⟨.critical, name, s!"Missing required section: {name}",
            s!"Add the {name} section to {sectionsKey}"⟩) ∧
    (required.Sublist others → other.score ≤ report.score) ∧
    ∀ check ≠ Check.presence, ∀ issues,
      check.run required plan issues = check.run others plan issues := by
  refine ⟨?_, ?_, score_le_of_sublist plan, ?_⟩
  · rw [issuesNotOpening_missingSectionPhrase, issuesNotOpening_missingSectionPhrase]
  · rw [issuesOpening_missingSectionPhrase, Plan.absentSections]
    cases plan.sections? with
    | none => rfl
    | some sections => rfl
  · intro check hcheck issues
    cases check with
    | presence => exact absurd rfl hcheck
    | _ => rfl

/-- The plan that lacks one section loses points only if that section is required. -/
theorem fewer_sections_required :
    ["1_executive_summary"].Sublist builtInSections ∧
      ((Validator.mk builtInSections).validate unpreparedPlan).score = 90 ∧
      ((Validator.mk ["1_executive_summary"]).validate unpreparedPlan).score = 100 ∧
      ((Validator.mk builtInSections).validate unpreparedPlan).score ≤
        ((Validator.mk ["1_executive_summary"]).validate unpreparedPlan).score ∧
      Check.quality ≠ .presence ∧
      Check.quality.run ["1_executive_summary"] unpreparedPlan [] =
        Check.quality.run builtInSections unpreparedPlan [] := by
  have hsublist : ["1_executive_summary"].Sublist builtInSections := by decide
  have hmain := required_list_reaches_section_issues_only unpreparedPlan ["1_executive_summary"]
    builtInSections
  have hscores : ((Validator.mk builtInSections).validate unpreparedPlan).score = 90 ∧
      ((Validator.mk ["1_executive_summary"]).validate unpreparedPlan).score = 100 := by
    simp only [validate, issues_unpreparedPlan]
    decide
  exact ⟨hsublist, hscores.1, hscores.2, hmain.2.2.1 hsublist, by decide,
    hmain.2.2.2 .quality (by decide) []⟩

end Validator

end PlanAudit
