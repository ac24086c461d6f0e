import PlanAudit.Proofs.CheckOrder
import PlanAudit.Proofs.MissingSection

/-! Section lists that name the same sections as the built-in one. They lead to the same checklist,
but a missing section costs as often as the list names it. -/
namespace PlanAudit

def Plan.absentSections (plan : Plan) (required : List String) : List String :=
  match plan.sections? with
  | none => []
  | some sections => required.filter (!sections.has ·)

theorem Plan.mem_absentSections_congr {plan : Plan} {required others : List String}
    (h : ∀ name, name ∈ required ↔ name ∈ others) (name : String) :
    name ∈ plan.absentSections required ↔ name ∈ plan.absentSections others := by
  unfold absentSections
  cases plan.sections? with
  | none => rfl
  | some sections => simp only [List.mem_filter, h name]

theorem Plan.absentSections_nodup {plan : Plan} {required : List String} (h : required.Nodup) :
    (plan.absentSections required).Nodup := by
  unfold absentSections
  cases plan.sections? with
  | none => exact List.nodup_nil
  | some sections => exact h.filter _

namespace SectionList

private theorem mem_names_iff {list : SectionList} (hextra : list.extra = [])
    (hmissing : list.missing = [])
    (name : String) : name ∈ list.names ↔ name ∈ builtInSections := by
  rw [extra, List.filter_eq_nil_iff] at hextra
  rw [missing, List.filter_eq_nil_iff] at hmissing
  constructor
  · intro h
    simpa using hextra name h
  · intro h
    simpa using hmissing name h

end SectionList

namespace Validator

def otherFindings (plan : Plan) : List Finding :=
  Rule.missingMetadata plan ++ (if plan.sections?.isSome then [] else [.missingContainer]) ++
    Check.all.tail.flatMap (Check.findings [] plan)

theorem missingSections_eq (required : List String) (plan : Plan) :
    Rule.missingSections required plan = (plan.absentSections required).map .missingSection ++
      if plan.sections?.isSome then [] else [.missingContainer] := by
  unfold Rule.missingSections Plan.absentSections
  cases plan.sections? with
  | none => rfl
  | some sections => simp

/-- The findings about sections stand behind the one about metadata. Only they depend on the list. -/
theorem findings_eq_append (validator : Validator) (plan : Plan) :
    validator.findings plan = Rule.missingMetadata plan ++
      Rule.missingSections validator.required plan ++
        Check.all.tail.flatMap (Check.findings [] plan) :=
  rfl

/-- Each required section that is absent is a finding, and the others do not depend on the list. -/
theorem findings_perm (validator : Validator) (plan : Plan) :
    (validator.findings plan).Perm
      ((plan.absentSections validator.required).map .missingSection ++ otherFindings plan) := by
  rw [findings_eq_append, missingSections_eq, otherFindings, List.append_assoc, List.append_assoc,
    List.append_assoc]
  exact List.perm_append_comm_assoc _ _ _

/-- The issues of a plan, as far as the required sections go, and the others. -/
theorem issues_perm (validator : Validator) (plan : Plan) :
    (validator.issues plan).Perm
      ((plan.absentSections validator.required).map (Finding.toIssue ∘ .missingSection) ++
        (otherFindings plan).map Finding.toIssue) := by
  have hperm := (findings_perm validator plan).map Finding.toIssue
  rw [List.map_append, List.map_map] at hperm
  rw [issues_eq_map_findings]
  exact hperm

/-- Every absent section costs 10 points each time it is required. -/
theorem totalPenalty_issues (validator : Validator) (plan : Plan) :
    totalPenalty (validator.issues plan) =
      min (10 * (plan.absentSections validator.required).length +
        ((otherFindings plan).map (·.severity.penalty)).sum) penaltyLimit := by
  have hten : (fun issue : Issue => issue.severity.penalty) ∘ (Finding.toIssue ∘ .missingSection) =
      Function.const String 10 := rfl
  rw [totalPenalty_perm (issues_perm validator plan), totalPenalty_eq, List.map_append,
    List.map_map, List.map_map, List.sum_append, hten, List.map_const, List.sum_replicate_nat,
    Nat.mul_comm]
  rfl

private theorem verdict_validate (validator : Validator) (plan : Plan) :
    (validator.validate plan).verdict = .ofScore (validator.validate plan).score := by
  simp only [validate, Report.ofIssues]

private theorem approved_validate (validator : Validator) (plan : Plan) :
    (validator.validate plan).approved = isApproved (validator.validate plan).score := by
  simp only [validate, Report.ofIssues]

/-- Two lists that name the same sections lead to the same checklist. -/
theorem checklist_congr {required others : List String}
    (h : ∀ name, name ∈ required ↔ name ∈ others) (plan : Plan) :
    ((Validator.mk required).validate plan).checklist =
      ((Validator.mk others).validate plan).checklist := by
  refine Checklist.project_congr fun issue => ?_
  simp only [(issues_perm _ plan).mem_iff, List.mem_append, List.mem_map,
    Plan.mem_absentSections_congr h]

/-- If one of two lists that name the same sections names each only once, the scores under both are
the same exactly if the other one repeats no section that is absent, or if there is no score left. -/
theorem score_eq_iff {required own : List String} (h : ∀ name, name ∈ required ↔ name ∈ own)
    (hown : own.Nodup) (plan : Plan) :
    ((Validator.mk required).validate plan).score = ((Validator.mk own).validate plan).score ↔
      ((Validator.mk own).validate plan).score = 0 ∨ (plan.absentSections required).Nodup := by
  have hmem : ∀ name, name ∈ plan.absentSections required ↔ name ∈ plan.absentSections own :=
    Plan.mem_absentSections_congr h
  have hnodup : (plan.absentSections own).Nodup := Plan.absentSections_nodup hown
  have hsubperm := hnodup.subperm fun name hname => (hmem name).2 hname
  have hlength : (plan.absentSections required).length = (plan.absentSections own).length ↔
      (plan.absentSections required).Nodup := by
    constructor
    · intro heq
      exact (hsubperm.perm_of_length_le heq.le).nodup_iff.1 hnodup
    · intro hrequired
      exact ((List.perm_ext_iff_of_nodup hrequired hnodup).2 hmem).length_eq
  -- A score of zero hides what repeats cost: the penalty is cut off at the maximum.
  have hle := hsubperm.length_le
  rw [← hlength, ← UInt8.toNat_inj, ← UInt8.toNat_inj]
  simp only [validate, Report.ofIssues, toNat_scoreOf, totalPenalty_issues, UInt8.toNat_zero,
    maxScore, penaltyLimit]
  omega

/-- A list that does not diverge from the built-in one never changes the checklist. It changes nothing
else exactly if it repeats no section that the plan lacks, or if the plan has no points to lose. -/
theorem agreeing_list_changes_only_repeats (list : SectionList) (hextra : list.extra = [])
    (hmissing : list.missing = []) (plan : Plan) :
    let other := (Setup.new.withSections (some list)).build.validate plan
    let own := Setup.new.build.validate plan
    other.checklist = own.checklist ∧
      (other.score = own.score ∧ other.verdict = own.verdict ∧ other.approved = own.approved ↔
        own.score = 0 ∨ (plan.absentSections list.names).Nodup) := by
  have hnames := SectionList.mem_names_iff hextra hmissing
  have hscore := score_eq_iff hnames builtInSections_nodup plan
  refine ⟨checklist_congr hnames plan, ?_⟩
  constructor
  · rintro ⟨heq, _⟩
    exact hscore.1 heq
  · intro h
    have heq := hscore.2 h
    refine ⟨heq, ?_, ?_⟩
    · rw [verdict_validate, verdict_validate]
      exact congrArg Verdict.ofScore heq
    · rw [approved_validate, approved_validate]
      exact congrArg isApproved heq

/-- A plan whose only fault is that it lacks the first section. -/
def unpreparedPlan : Plan :=
  tersePlan.withoutSection "0_preparation"

theorem issues_unpreparedPlan (validator : Validator) :
    validator.issues unpreparedPlan =
      (Rule.missingSections validator.required unpreparedPlan).map Finding.toIssue := by
  have hflat : "0_preparation" = phasesKey → tersePlan.flatTasks? = none := fun _ => rfl
  rw [issues_eq_map_findings, unpreparedPlan, findings_withoutSection issues_tersePlan hflat]

/-- The order of the list does not matter. -/
theorem reversed_list_changes_nothing :
    (SectionList.mk builtInSections.reverse).extra = [] ∧
      (SectionList.mk builtInSections.reverse).missing = [] ∧
      ((Setup.new.withSections (some ⟨builtInSections.reverse⟩)).build.validate
        unpreparedPlan).score = (Setup.new.build.validate unpreparedPlan).score := by
  have hextra : (SectionList.mk builtInSections.reverse).extra = [] := by decide
  have hmissing : (SectionList.mk builtInSections.reverse).missing = [] := by decide
  have hreport := agreeing_list_changes_only_repeats _ hextra hmissing unpreparedPlan
  have hnodup : (unpreparedPlan.absentSections builtInSections.reverse).Nodup :=
    Plan.absentSections_nodup (List.nodup_reverse.2 builtInSections_nodup)
  exact ⟨hextra, hmissing, (hreport.2.2 (.inr hnodup)).1⟩

/-- A list that names one section twice can be loaded and does not diverge. The section is missing
once, but the plan loses its approval. -/
theorem repeated_section_costs_twice :
    ∃ list : SectionList,
      SectionList.ofJson (.object [("required_sections",
        .array (("0_preparation" :: builtInSections).map .string))]) = .ok list ∧
      list.extra = [] ∧ list.missing = [] ∧
      (Setup.new.build.validate unpreparedPlan).score = 90 ∧
      (Setup.new.build.validate unpreparedPlan).verdict = .pass ∧
      (Setup.new.build.validate unpreparedPlan).approved = true ∧
      ((Setup.new.withSections (some list)).build.validate unpreparedPlan).score = 80 ∧
      ((Setup.new.withSections (some list)).build.validate unpreparedPlan).verdict =
        .needsRevision ∧
      ((Setup.new.withSections (some list)).build.validate unpreparedPlan).approved = false := by
  refine ⟨⟨"0_preparation" :: builtInSections⟩, rfl, by decide, by decide, ?_⟩
  simp only [validate, issues_unpreparedPlan]
  decide

end Validator

end PlanAudit
