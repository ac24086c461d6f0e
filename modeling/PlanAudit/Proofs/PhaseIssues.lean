import PlanAudit.Proofs.MissingSection
import PlanAudit.Proofs.PhaseForms

/-! Issues about phases. Phases in an array have to be complete, and phases with keys have to be rated
rightly. Every plan is judged by one of these rules at most: beside an array of phases, members with
the key of a phase do not count. -/
namespace PlanAudit

def missingFieldPhrase : String :=
  "Phase missing required field"

/-- The checks of the ratings, and the phrases that messages about them begin with. -/
def ratingPhrases : List (String × String) :=
  [("complexity_ratings_valid", "Invalid complexity"), ("effort_levels_valid", "Invalid effort_level"),
   ("no_deprecated_fields", "Deprecated field")]

def phasePhrases : List (String × String) :=
  ("phases_complete", missingFieldPhrase) :: ratingPhrases

def Report.phaseIssues (report : Report) : List Issue :=
  report.issues.filter fun issue =>
    phasePhrases.any fun entry => entry.2.toList.isPrefixOf issue.message.toList

theorem phasePhrases_items : ∀ entry ∈ phasePhrases,
    ChecklistItem.beginning entry.1 entry.2 ∈ Checklist.items := by
  simp [phasePhrases, missingFieldPhrase, ratingPhrases, Checklist.items]

theorem map_fst_ratingPhrases : ratingPhrases.map Prod.fst = Rule.ratingChecks :=
  rfl

/-- The message of a finding begins with the phrase of a check exactly if the finding fails it. -/
theorem Finding.opens_iff {finding : Finding} (hregular : finding.Regular) {name phrase : String}
    (hitem : ChecklistItem.beginning name phrase ∈ Checklist.items) :
    phrase.toList.isPrefixOf finding.toIssue.message.toList = true ↔
      name ∈ finding.failedChecks := by
  rw [List.isPrefixOf_iff_prefix, ← ChecklistItem.failedByMessage_beginning name phrase]
  exact Checklist.failed_iff hitem hregular

namespace Validator

variable (validator : Validator) (plan : Plan)

theorem phaseRule_mem : (phasePhrases.map Prod.fst, Rule.phaseFaults plan.phaseLayout) ∈
    validator.rules plan := by
  have hrule : validator.rule? plan "phases_complete" =
      some (phasePhrases.map Prod.fst, Rule.phaseFaults plan.phaseLayout) := rfl
  exact mem_of_rule? hrule

/-- The issues about phases are those of the rule on phases, in their order. -/
theorem phaseIssues_validate : (validator.validate plan).phaseIssues =
    (Rule.phaseFaults plan.phaseLayout).map Finding.toIssue := by
  have hopens : ∀ finding : Finding, finding.Regular →
      ((phasePhrases.any fun entry =>
        entry.2.toList.isPrefixOf finding.toIssue.message.toList) = true ↔
      ∃ name ∈ finding.failedChecks, name ∈ phasePhrases.map Prod.fst) := by
    intro finding hregular
    rw [List.any_eq_true]
    constructor
    · rintro ⟨entry, hentry, hopens⟩
      have hfails := (finding.opens_iff hregular (phasePhrases_items entry hentry)).1 hopens
      exact ⟨entry.1, hfails, List.mem_map_of_mem hentry⟩
    · rintro ⟨name, hfails, hname⟩
      obtain ⟨entry, hentry, rfl⟩ := List.mem_map.1 hname
      exact ⟨entry, hentry, (finding.opens_iff hregular (phasePhrases_items entry hentry)).2 hfails⟩
  have hrule := phaseRule_mem validator plan
  have hfound := filter_findings_eq validator plan hrule fun finding hfinding htest =>
    (hopens finding (regular_of_mem_findings validator plan hfinding)).1 htest
  have hown : (Rule.phaseFaults plan.phaseLayout).filter (fun finding => phasePhrases.any fun entry =>
      entry.2.toList.isPrefixOf finding.toIssue.message.toList) =
      Rule.phaseFaults plan.phaseLayout := by
    rw [List.filter_eq_self]
    intro finding hfinding
    obtain ⟨hregular, hchecks⟩ := rules_concern validator plan _ hrule finding hfinding
    obtain ⟨name, hname⟩ := List.exists_mem_of_ne_nil _ (Checklist.failedChecks_ne_nil finding)
    exact (hopens finding hregular).2 ⟨name, hname, hchecks hname⟩
  show (validator.issues plan).filter _ = _
  rw [issues_eq_map_findings, List.filter_map]
  exact congrArg (List.map Finding.toIssue) (hfound.trans hown)

/-- There are issues with the phrase of a check exactly if its rule has found something about it. -/
theorem issuesOpening_ne_nil_iff {name phrase : String}
    (hitem : ChecklistItem.beginning name phrase ∈ Checklist.items)
    {checks : List String} {found : List Finding} (hrule : (checks, found) ∈ validator.rules plan)
    (hname : name ∈ checks) :
    (validator.validate plan).issuesOpening phrase ≠ [] ↔
      ∃ finding ∈ found, name ∈ finding.failedChecks := by
  have hfailed := passed_eq_false_iff_rule validator plan hitem hrule hname
  rw [Checklist.passed, Bool.not_eq_false', List.any_eq_true] at hfailed
  simp only [ChecklistItem.failedByMessage_beginning] at hfailed
  refine Iff.trans ?_ hfailed
  rw [Report.issuesOpening, ne_eq, List.filter_eq_nil_iff]
  simp only [List.isPrefixOf_iff_prefix, not_forall, not_not, exists_prop]
  rfl

/-- A phase lacks a field only where the phases are an array. -/
theorem missingField_issues_iff :
    (validator.validate plan).issuesOpening missingFieldPhrase ≠ [] ↔
      ¬ plan.phaseLayout.Sound ∧ ∃ phases, plan.phaseLayout = .array phases := by
  have hentry : ("phases_complete", missingFieldPhrase) ∈ phasePhrases := List.mem_cons_self
  rw [issuesOpening_ne_nil_iff validator plan (phasePhrases_items _ hentry)
    (phaseRule_mem validator plan) (List.mem_map_of_mem hentry), ← Rule.phaseFaults_eq_nil_iff]
  cases plan.phaseLayout with
  | array phases =>
    have hfailed := (Rule.phaseFaults_array_concerns phases).exists_failed_iff
    simp only [List.mem_singleton, exists_eq_left] at hfailed
    rw [hfailed]
    simp
  | keyed phases =>
    have hchecks : "phases_complete" ∉ Rule.ratingChecks := by decide
    simp only [reduceCtorEq, exists_false, and_false, iff_false, not_exists, not_and]
    intro finding hfinding hfails
    exact hchecks ((Rule.phaseFaults_keyed_concerns phases finding hfinding).2 hfails)
  | absent => simp [Rule.phaseFaults]

/-- A rating is wrong only where the phases have keys. -/
theorem rating_issues_iff :
    (∃ entry ∈ ratingPhrases, (validator.validate plan).issuesOpening entry.2 ≠ []) ↔
      ¬ plan.phaseLayout.Sound ∧ ∃ phases, plan.phaseLayout = .keyed phases := by
  have hopens : ∀ entry ∈ ratingPhrases, (validator.validate plan).issuesOpening entry.2 ≠ [] ↔
      ∃ finding ∈ Rule.phaseFaults plan.phaseLayout, entry.1 ∈ finding.failedChecks := by
    intro entry hentry
    have hphrase : entry ∈ phasePhrases := List.mem_cons_of_mem _ hentry
    exact issuesOpening_ne_nil_iff validator plan (phasePhrases_items entry hphrase)
      (phaseRule_mem validator plan) (List.mem_map_of_mem hphrase)
  have hrating : (∃ entry ∈ ratingPhrases, (validator.validate plan).issuesOpening entry.2 ≠ []) ↔
      ∃ finding ∈ Rule.phaseFaults plan.phaseLayout,
        ∃ name ∈ Rule.ratingChecks, name ∈ finding.failedChecks := by
    rw [← map_fst_ratingPhrases]
    constructor
    · rintro ⟨entry, hentry, hissues⟩
      obtain ⟨finding, hfinding, hfails⟩ := (hopens entry hentry).1 hissues
      exact ⟨finding, hfinding, entry.1, List.mem_map_of_mem hentry, hfails⟩
    · rintro ⟨finding, hfinding, name, hname, hfails⟩
      obtain ⟨entry, hentry, rfl⟩ := List.mem_map.1 hname
      exact ⟨entry, hentry, (hopens entry hentry).2 ⟨finding, hfinding, hfails⟩⟩
  rw [hrating, ← Rule.phaseFaults_eq_nil_iff]
  cases plan.phaseLayout with
  | array phases =>
    have hchecks : "phases_complete" ∉ Rule.ratingChecks := by decide
    simp only [reduceCtorEq, exists_false, and_false, iff_false, not_exists, not_and]
    intro finding hfinding name hname hfails
    have hown := (Rule.phaseFaults_array_concerns phases finding hfinding).2 hfails
    exact hchecks (List.mem_singleton.1 hown ▸ hname)
  | keyed phases =>
    rw [(Rule.phaseFaults_keyed_concerns phases).exists_failed_iff]
    simp
  | absent => simp [Rule.phaseFaults]

end Validator

namespace Json.Members

variable {members : Json.Members} {phase key : String}

private theorem get?_insertKey_phase (hphase : "phase_".toList <+: phase.toList)
    (hkey : ¬ "phase_".toList <+: key.toList) (value : Json) :
    Json.Members.get? (insertKey phase value members) key = members.get? key := by
  have hne : key ≠ phase := by
    intro heq
    exact hkey (heq ▸ hphase)
  rw [get?, lookup_insertKey, if_neg hne, get?]

private theorem get?_filter_phase (hphase : "phase_".toList <+: phase.toList)
    (hkey : ¬ "phase_".toList <+: key.toList) :
    Json.Members.get? (members.filter (·.1 != phase)) key = members.get? key := by
  have hne : key ≠ phase := by
    intro heq
    exact hkey (heq ▸ hphase)
  rw [get?_filter_ne, if_neg hne]

end Json.Members

namespace Plan

variable {plan : Plan}

theorem population_withPhases {content : Json}
    (h : (plan.withPhases content).phaseLayout = plan.phaseLayout) :
    (plan.withPhases content).population = plan.population := by
  unfold population
  rw [h, flatTasks?_withPhases]

end Plan

namespace Validator

/-- A report judges phases in one form only, and beside an array members with keys of phases do not
count. -/
theorem phase_forms_never_mixed (validator : Validator) (plan : Plan) :
    let report := validator.validate plan
    let incomplete := report.issuesOpening "Phase missing required field" ≠ []
    let misrated := ∃ phrase ∈ ["Invalid complexity", "Invalid effort_level", "Deprecated field"],
      report.issuesOpening phrase ≠ []
    (incomplete ↔ ¬ plan.phaseLayout.Sound ∧ ∃ phases, plan.phaseLayout = .array phases) ∧
    (misrated ↔ ¬ plan.phaseLayout.Sound ∧ ∃ phases, plan.phaseLayout = .keyed phases) ∧
    ¬ (incomplete ∧ misrated) ∧
    ∀ (members changed : Json.Members) (phases : List Json),
      plan.section? phasesKey = some (.object members) →
      members.get? "phases" = some (.array phases) →
      (∀ key, ¬ "phase_".toList <+: key.toList → changed.get? key = members.get? key) →
      (plan.withPhases (.object changed)).population = plan.population ∧
        (validator.validate (plan.withPhases (.object changed))).phaseIssues =
          report.phaseIssues := by
  intro report incomplete misrated
  have hincomplete : incomplete ↔
      ¬ plan.phaseLayout.Sound ∧ ∃ phases, plan.phaseLayout = .array phases :=
    missingField_issues_iff validator plan
  have hmisrated : misrated ↔
      ¬ plan.phaseLayout.Sound ∧ ∃ phases, plan.phaseLayout = .keyed phases := by
    rw [← rating_issues_iff validator plan]
    simp [misrated, report, ratingPhrases]
  refine ⟨hincomplete, hmisrated, ?_, ?_⟩
  · rintro ⟨harray, hkeyed⟩
    obtain ⟨_, phases, hphases⟩ := hincomplete.1 harray
    obtain ⟨_, others, hothers⟩ := hmisrated.1 hkeyed
    rw [hphases] at hothers
    cases hothers
  · intro members changed phases hsection harray hother
    have hchanged : changed.get? "phases" = some (.array phases) := by
      rw [hother "phases" (by decide), harray]
    have hlayout : (plan.withPhases (.object changed)).phaseLayout = plan.phaseLayout := by
      have hnew : (plan.withPhases (.object changed)).section? phasesKey =
          some (.object changed) := by
        rw [Plan.section?_withPhases, if_pos rfl]
      unfold Plan.phaseLayout
      rw [hnew, hsection, PhaseLayout.ofSection, PhaseLayout.ofSection,
        PhaseLayout.ofMembers_of_array hchanged, PhaseLayout.ofMembers_of_array harray]
    refine ⟨Plan.population_withPhases hlayout, ?_⟩
    rw [phaseIssues_validate, phaseIssues_validate, hlayout]

/-- One task is in the array, and one in a phase with a key, which also has a rating. -/
def bothForms : Json.Members :=
  [("phase_1", .object [("complexity", .integer 7), ("tasks", .array [.string "B"])]),
   ("phases", .array [.object [("name", .string "setup"), ("tasks", .array [.string "A"])]])]

def bothFormsEdited : Json.Members :=
  insertKey "phase_2" (.object [("duration", .integer 3)]) (bothForms.filter (·.1 != "phase_1"))

theorem edited_phase_not_reported :
    let plan : Plan := ⟨[(sectionsKey, .object [(phasesKey, .object bothForms)])]⟩
    plan.section? phasesKey = some (.object bothForms) ∧
      (∀ key, ¬ "phase_".toList <+: key.toList →
        bothFormsEdited.get? key = bothForms.get? key) ∧
      plan.population.ids = ["A"] ∧
      (plan.withPhases (.object bothFormsEdited)).population = plan.population ∧
      ((Setup.new.build.validate plan).phaseIssues.map Issue.message) =
        ["Phase missing required field: setup lacks 'phase'",
         "Phase missing required field: setup lacks 'deliverables'"] ∧
      (Setup.new.build.validate (plan.withPhases (.object bothFormsEdited))).phaseIssues =
        (Setup.new.build.validate plan).phaseIssues := by
  intro plan
  have hother : ∀ key, ¬ "phase_".toList <+: key.toList →
      bothFormsEdited.get? key = bothForms.get? key := by
    intro key hkey
    rw [bothFormsEdited, Json.Members.get?_insertKey_phase (by decide) hkey,
      Json.Members.get?_filter_phase (by decide) hkey]
  have hmain := (phase_forms_never_mixed Setup.new.build plan).2.2.2 bothForms bothFormsEdited _ rfl
    rfl hother
  refine ⟨rfl, hother, rfl, hmain.1, ?_, hmain.2⟩
  rw [phaseIssues_validate]
  rfl

end Validator

end PlanAudit
