import PlanAudit.Proofs.KeyedPhases
import PlanAudit.Proofs.PhaseIssues
import PlanAudit.Proofs.ReportConsistency
import PlanAudit.Proofs.TimeKeywords
import PlanAudit.Proofs.WordingInStrings

/-! The duration of a phase costs twice. The rule on phases looks it up by its key, and the rule on time
estimates finds the key as a word in the text of the plan, however deep it stands. -/
namespace PlanAudit

namespace Json

inductive Names (key : String) : Json → Prop where
  | here {members : Members} {value : Json} : (key, value) ∈ members → Names key (.object members)
  | item {items : List Json} {item : Json} :
    item ∈ items → Names key item → Names key (.array items)
  | member {members : Members} {other : String} {value : Json} :
    (other, value) ∈ members → Names key value → Names key (.object members)

/-- A key stands in the text of every value that it belongs to. -/
theorem Names.stringChars_part {key : String} {value : Json} (h : Names key value) :
    stringChars key <:+: value.chars := by
  induction h with
  | @here members value hmember =>
    have hkey : stringChars key <:+: memberChars (key, value) := (List.prefix_append _ _).isInfix
    exact hkey.trans (memberChars_part_of_object hmember)
  | item hitem _ ih => exact ih.trans (chars_part_of_array hitem)
  | member hmember _ ih => exact ih.trans (chars_part_of_object hmember)

theorem Members.mem_of_get? {members : Members} {key : String} {value : Json}
    (h : members.get? key = some value) : (key, value) ∈ members := by
  obtain ⟨front, back, rfl, _⟩ := List.lookup_eq_some_iff.1 h
  exact List.mem_append_right _ List.mem_cons_self

theorem names_of_get? {value part : Json} {key : String} (h : value.get? key = some part) :
    value.Names key := by
  cases value with
  | object members => exact .here (Members.mem_of_get? h)
  | _ => cases h

theorem Names.of_get? {key name : String} {value part : Json} (h : part.Names key)
    (hpart : value.get? name = some part) : value.Names key := by
  cases value with
  | object members => exact .member (Members.mem_of_get? hpart) h
  | _ => cases hpart

end Json

namespace Plan

variable {plan : Plan} {key : String}

/-- What a section names, the plan names. -/
theorem names_of_section {name : String} {content : Json} (h : plan.section? name = some content)
    (hkey : content.Names key) : plan.toJson.Names key := by
  rw [section?_eq_bind] at h
  obtain ⟨sections, hsections, hcontent⟩ := Option.bind_eq_some_iff.1 h
  exact (hkey.of_get? hcontent).of_get? hsections

theorem exists_members_of_keyed {phases : List (String × Json)}
    (h : plan.phaseLayout = .keyed phases) :
    ∃ members, plan.section? phasesKey = some (.object members) ∧
      phases = PhaseLayout.keyedPhases members := by
  unfold phaseLayout PhaseLayout.ofSection at h
  split at h
  · cases h
  · next members hsection =>
    refine ⟨members, hsection, ?_⟩
    unfold PhaseLayout.ofMembers at h
    split at h
    · cases h
    · split at h
      · cases h
      · cases h
        rfl
  · cases h

theorem names_of_keyed {phases : List (String × Json)} (h : plan.phaseLayout = .keyed phases)
    {phase : String × Json} (hphase : phase ∈ phases) (hkey : phase.2.Names key) :
    plan.toJson.Names key := by
  obtain ⟨members, hsection, rfl⟩ := exists_members_of_keyed h
  have hmember := (PhaseLayout.mem_keyedPhases.1 hphase).1
  exact names_of_section hsection (.member hmember hkey)

end Plan

def PhaseLayout.HasDuration (layout : PhaseLayout) : Prop :=
  ∃ phases, layout = .keyed phases ∧ ∃ phase ∈ phases, (phase.2.get? "duration").isSome

theorem Plan.names_duration {plan : Plan} (h : plan.phaseLayout.HasDuration) :
    plan.toJson.Names "duration" := by
  obtain ⟨phases, hphases, phase, hphase, hduration⟩ := h
  obtain ⟨value, hvalue⟩ := Option.isSome_iff_exists.1 hduration
  exact names_of_keyed hphases hphase (Json.names_of_get? hvalue)

namespace Rule

/-- Nothing hides a detached keyword of the text in lower case. -/
theorem mem_timeKeywordsIn_of_detached {keyword : String}
    (hkeyword : keyword ∈ Vocabulary.detachedKeywords) {text : List Char}
    (h : keyword.toList <:+: Text.lower text) : keyword ∈ timeKeywordsIn text := by
  have hlisted := Vocabulary.detachedKeywords_subset hkeyword
  obtain ⟨hne, hfiller⟩ := Vocabulary.timeKeywords_spelling keyword hlisted
  obtain ⟨spans, hstripped⟩ := Vocabulary.stripped_timelessWords (Text.lower text)
  obtain ⟨place, hstands⟩ := Text.infix_iff_exists_standsAt.1 h
  have hapart := Vocabulary.standsApart_of_detached hkeyword hstripped.leftmost hstands
  rw [mem_timeKeywordsIn_iff hlisted, hstripped.infix_iff hne hfiller]
  exact ⟨place, Nat.zero_le _, hapart⟩

/-- A detached keyword that is a key in a plan is among the keywords of its text. -/
theorem mem_timeKeywordsIn_of_names {keyword : String}
    (hkeyword : keyword ∈ Vocabulary.detachedKeywords) {plan : Plan}
    (h : plan.toJson.Names keyword) : keyword ∈ timeKeywordsIn plan.toJson.chars := by
  have hspelled : ∀ keyword ∈ Vocabulary.detachedKeywords,
      Text.lower (keyword.toList.flatMap Json.escape) = keyword.toList := by decide
  have hquoted : keyword.toList.flatMap Json.escape <:+: Json.stringChars keyword :=
    ⟨['"'], ['"'], rfl⟩
  have hlower := (hquoted.trans h.stringChars_part).flatMap Text.lowerChar
  apply mem_timeKeywordsIn_of_detached hkeyword
  rw [← hspelled keyword hkeyword]
  exact hlower

theorem duration_mem_timeKeywordsIn {plan : Plan} (h : plan.phaseLayout.HasDuration) :
    "duration" ∈ timeKeywordsIn plan.toJson.chars :=
  mem_timeKeywordsIn_of_names (by decide) (Plan.names_duration h)

theorem timeEstimates_of_duration {plan : Plan} (h : plan.phaseLayout.HasDuration) :
    timeEstimates plan.toJson.chars = [.timeEstimates (timeKeywordsIn plan.toJson.chars)] := by
  rw [timeEstimates_eq, if_neg (List.ne_nil_of_mem (duration_mem_timeKeywordsIn h))]

theorem deprecatedDuration_mem_phaseFaults {layout : PhaseLayout} (h : layout.HasDuration) :
    ∃ key, .deprecatedDuration key ∈ phaseFaults layout := by
  obtain ⟨phases, rfl, phase, hphase, hduration⟩ := h
  obtain ⟨value, hvalue⟩ := Option.isSome_iff_exists.1 hduration
  have hfound : .deprecatedDuration phase.1 ∈ wrongRatings phase.1 phase.2 := by
    simp [wrongRatings, hvalue]
  exact ⟨phase.1, List.mem_flatMap.2 ⟨phase, hphase, hfound⟩⟩

/-- A duration is reported exactly where a phase with a key has one. -/
theorem exists_deprecated_iff (layout : PhaseLayout) :
    (∃ finding ∈ phaseFaults layout, "no_deprecated_fields" ∈ finding.failedChecks) ↔
      layout.HasDuration := by
  constructor
  · rintro ⟨finding, hfinding, hfails⟩
    cases layout with
    | array phases =>
      have hown := (phaseFaults_array_concerns phases finding hfinding).2 hfails
      simp at hown
    | keyed phases =>
      obtain ⟨phase, hphase, hfound⟩ := List.mem_flatMap.1 hfinding
      refine ⟨phases, rfl, phase, hphase, ?_⟩
      simp only [wrongRatings, List.mem_append, Option.mem_toList, Option.map_eq_some_iff] at hfound
      rcases hfound with (⟨_, _, rfl⟩ | ⟨_, _, rfl⟩) | ⟨value, hvalue, rfl⟩
      · simp [Finding.failedChecks] at hfails
      · simp [Finding.failedChecks] at hfails
      · rw [hvalue]
        rfl
    | absent => cases hfinding
  · intro h
    obtain ⟨key, hkey⟩ := deprecatedDuration_mem_phaseFaults h
    exact ⟨_, hkey, List.mem_singleton_self _⟩

end Rule

theorem Checklist.deprecated_item :
    ChecklistItem.beginning "no_deprecated_fields" "Deprecated field" ∈ items :=
  phasePhrases_items ("no_deprecated_fields", "Deprecated field") (by decide)

namespace Check

private theorem mem_validator_findings {required : List String} {plan : Plan} {check : Check}
    {finding : Finding} (h : finding ∈ check.findings required plan) :
    finding ∈ (Validator.mk required).findings plan := by
  have hcheck : check ∈ all := by
    cases check <;> decide
  exact List.mem_flatMap.2 ⟨check, hcheck, h⟩

/-- The quality check reports a duration exactly where a phase with a key has one. -/
theorem quality_deprecates_iff (required : List String) (plan : Plan) :
    (∃ issue ∈ run required plan [] .quality,
      "Deprecated field".toList <+: issue.message.toList) ↔ plan.phaseLayout.HasDuration := by
  rw [← Rule.exists_deprecated_iff]
  constructor
  · rintro ⟨issue, hissue, hopens⟩
    obtain ⟨finding, hfinding, rfl⟩ := mem_run_iff.1 hissue
    have hlisted := mem_validator_findings hfinding
    have hregular := Validator.regular_of_mem_findings _ plan hlisted
    have hfails := (finding.opens_iff hregular Checklist.deprecated_item).1
      (List.isPrefixOf_iff_prefix.2 hopens)
    have hcheck : "no_deprecated_fields" ∈ phasePhrases.map Prod.fst := by decide
    have hrule := (Validator.mk required).phaseRule_mem plan
    exact ⟨finding, Validator.mem_rule_of_failed _ plan hrule hcheck hlisted hfails, hfails⟩
  · rintro ⟨finding, hfinding, hfails⟩
    have hregular := (Rule.phaseFaults_concerns _ finding hfinding).1
    have hopens := (finding.opens_iff hregular Checklist.deprecated_item).2 hfails
    refine ⟨finding.toIssue, mem_run_iff.2 ⟨_, ?_, rfl⟩, List.isPrefixOf_iff_prefix.1 hopens⟩
    simp [findings, hfinding]

end Check

theorem Report.count_pos {report : Report} {issue : Issue} (h : issue ∈ report.issues) :
    0 < report.count issue.severity :=
  List.countP_pos_iff.2 ⟨issue, h, beq_self_eq_true _⟩

namespace Validator

variable (validator : Validator) (plan : Plan)

theorem toIssue_mem_issues {rule : List String × List Finding} (hrule : rule ∈ validator.rules plan)
    {finding : Finding} (h : finding ∈ rule.2) :
    finding.toIssue ∈ (validator.validate plan).issues := by
  have hissues : (validator.validate plan).issues = _ := issues_eq_map_findings validator plan
  rw [hissues]
  exact List.mem_map_of_mem ((mem_findings_iff validator plan).2 ⟨rule, hrule, h⟩)

theorem timeRule_mem : (["no_time_estimates"], Rule.timeEstimates plan.toJson.chars) ∈
    validator.rules plan := by
  have hrule : validator.rule? plan "no_time_estimates" =
      some (_, Rule.timeEstimates plan.toJson.chars) := rfl
  exact mem_of_rule? hrule

/-- A check is failed exactly if its rule has found something about it. -/
theorem get?_checklist_eq_false_iff {item : ChecklistItem} (hitem : item ∈ Checklist.items)
    {checks : List String} {found : List Finding} (hrule : (checks, found) ∈ validator.rules plan)
    (hname : item.name ∈ checks) :
    (validator.validate plan).checklist.get? item.name = some false ↔
      ∃ finding ∈ found, item.name ∈ finding.failedChecks := by
  rw [get?_checklist validator plan hitem, Option.some_inj]
  exact passed_eq_false_iff_rule validator plan hitem hrule hname

theorem deprecated_check_failed_iff :
    (validator.validate plan).checklist.get? "no_deprecated_fields" = some false ↔
      plan.phaseLayout.HasDuration := by
  have hcheck : "no_deprecated_fields" ∈ phasePhrases.map Prod.fst := by decide
  rw [← Rule.exists_deprecated_iff]
  exact get?_checklist_eq_false_iff validator plan Checklist.deprecated_item
    (phaseRule_mem validator plan) hcheck

variable {plan} (h : plan.phaseLayout.HasDuration)

include h

theorem time_check_failed_of_duration :
    (validator.validate plan).checklist.get? "no_time_estimates" = some false := by
  have hitem : Checklist.item? "no_time_estimates" =
      some (.beginning _ "Time-based estimates") := rfl
  have hrule := timeRule_mem validator plan
  rw [Rule.timeEstimates_of_duration h] at hrule
  refine (get?_checklist_eq_false_iff validator plan (Checklist.mem_of_item? hitem) hrule
    (List.mem_singleton_self _)).2 ?_
  exact ⟨_, List.mem_singleton_self _, List.mem_singleton_self _⟩

/-- The issue about the phase is of minor severity, and that about the word of major severity. -/
theorem penalty_of_duration : 6 ≤ (validator.validate plan).penalty := by
  obtain ⟨key, hfault⟩ := Rule.deprecatedDuration_mem_phaseFaults h
  have hestimate : .timeEstimates (Rule.timeKeywordsIn plan.toJson.chars) ∈
      Rule.timeEstimates plan.toJson.chars := by
    rw [Rule.timeEstimates_of_duration h]
    exact List.mem_singleton_self _
  have hminor : 0 < (validator.validate plan).count .minor :=
    Report.count_pos (toIssue_mem_issues validator plan (phaseRule_mem validator plan) hfault)
  have hmajor : 0 < (validator.validate plan).count .major :=
    Report.count_pos (toIssue_mem_issues validator plan (timeRule_mem validator plan) hestimate)
  unfold Report.penalty
  omega

end Validator

/-- The key of the deprecated field is one of the words that the time policy looks for, so two
checks fail. -/
theorem Validator.deprecated_duration_costs_twice (validator : Validator) (plan : Plan) :
    let report := validator.validate plan
    let deprecated := ∃ issue ∈ Check.quality.run validator.required plan [],
      "Deprecated field".toList <+: issue.message.toList
    (deprecated ↔ ∃ phases, plan.phaseLayout = .keyed phases ∧
      ∃ phase ∈ phases, (phase.2.get? "duration").isSome) ∧
    (deprecated → ∃ keywords : List String,
      "duration" ∈ keywords ∧ keywords.Sublist Vocabulary.timeKeywords ∧
      Check.timePolicy.run validator.required plan [] =
        [⟨.major, "document", "Time-based estimates found: " ++ ", ".intercalate keywords,
          "Remove time estimates; rate work by complexity and effort level instead"⟩]) ∧
    (report.checklist.get? "no_deprecated_fields" = some false →
      report.checklist.get? "no_time_estimates" = some false ∧ 6 ≤ report.penalty) := by
  intro report deprecated
  have hdeprecated := Check.quality_deprecates_iff validator.required plan
  refine ⟨hdeprecated, ?_, ?_⟩
  · intro hraised
    have h := hdeprecated.1 hraised
    refine ⟨_, Rule.duration_mem_timeKeywordsIn h, List.filter_sublist, ?_⟩
    rw [Check.run_eq, Check.findings, Rule.timeEstimates_of_duration h]
    rfl
  · intro hfailed
    have h := (deprecated_check_failed_iff validator plan).1 hfailed
    exact ⟨time_check_failed_of_duration validator h, penalty_of_duration validator h⟩

/-- A phase with a duration, and with a word beside it that estimates nothing. -/
def timedPhase : String × Json :=
  ("phase_first", .object [("duration", .string "run-time")])

def timedPlan : Plan :=
  ⟨[(sectionsKey, .object [(phasesKey, .object [timedPhase])])]⟩

private theorem hasDuration_timedPlan : timedPlan.phaseLayout.HasDuration := by
  have hsection : timedPlan.section? phasesKey = some (.object [timedPhase]) := rfl
  have hnone : Json.Members.get? [timedPhase] "phases" = none := rfl
  have hphases : PhaseLayout.keyedPhases [timedPhase] = [timedPhase] := List.mergeSort_singleton _
  refine ⟨[timedPhase], ?_, timedPhase, List.mem_singleton_self _, rfl⟩
  rw [Plan.phaseLayout, hsection, PhaseLayout.ofSection, PhaseLayout.ofMembers_eq (by simp [hnone]),
    hphases, if_neg (List.cons_ne_nil _ _)]

theorem timedPlan_pays_twice :
    (∃ issue ∈ Check.quality.run builtInSections timedPlan [],
      "Deprecated field".toList <+: issue.message.toList) ∧
    (∃ keywords, "duration" ∈ keywords ∧ Check.timePolicy.run builtInSections timedPlan [] =
      [⟨.major, "document", "Time-based estimates found: " ++ ", ".intercalate keywords,
        "Remove time estimates; rate work by complexity and effort level instead"⟩]) ∧
    (Setup.new.build.validate timedPlan).checklist.get? "no_deprecated_fields" = some false ∧
    (Setup.new.build.validate timedPlan).checklist.get? "no_time_estimates" = some false ∧
    6 ≤ (Setup.new.build.validate timedPlan).penalty := by
  obtain ⟨hiff, hlisted, hcosts⟩ :=
    Validator.deprecated_duration_costs_twice Setup.new.build timedPlan
  have hraised := hiff.2 hasDuration_timedPlan
  have hfailed := (Validator.deprecated_check_failed_iff Setup.new.build timedPlan).2
    hasDuration_timedPlan
  obtain ⟨keywords, hmem, _, hrun⟩ := hlisted hraised
  exact ⟨hraised, ⟨keywords, hmem, hrun⟩, hfailed, hcosts hfailed⟩

end PlanAudit
