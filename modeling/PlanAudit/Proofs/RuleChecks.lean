import Mathlib.Data.List.Pairwise
import PlanAudit.Proofs.FailedChecks
import PlanAudit.Proofs.RaisedIssues

/-! Every rule has checks of its own. The checklist of a report says of each check whether its rule
has found something. -/
namespace PlanAudit

/-- All findings are regular and fail none but the given checks. -/
def Concerns (checks : List String) (found : List Finding) : Prop :=
  ∀ finding ∈ found, finding.Regular ∧ finding.failedChecks ⊆ checks

namespace Concerns

theorem nil (checks : List String) : Concerns checks [] := by
  intro finding h
  cases h

theorem append {checks : List String} {found more : List Finding} (hfound : Concerns checks found)
    (hmore : Concerns checks more) : Concerns checks (found ++ more) := by
  intro finding h
  rcases List.mem_append.1 h with h | h
  · exact hfound finding h
  · exact hmore finding h

theorem map {α : Type} {checks : List String} {make : α → Finding} {list : List α}
    (h : ∀ a ∈ list, (make a).Regular ∧ (make a).failedChecks ⊆ checks) :
    Concerns checks (list.map make) := by
  intro finding hmem
  obtain ⟨a, ha, rfl⟩ := List.mem_map.1 hmem
  exact h a ha

theorem flatMap {α : Type} {checks : List String} {find : α → List Finding} {list : List α}
    (h : ∀ a ∈ list, Concerns checks (find a)) : Concerns checks (list.flatMap find) := by
  intro finding hmem
  obtain ⟨a, ha, hfinding⟩ := List.mem_flatMap.1 hmem
  exact h a ha finding hfinding

theorem singleton {checks : List String} {finding : Finding} (hregular : finding.Regular)
    (hchecks : finding.failedChecks ⊆ checks) : Concerns checks [finding] := by
  intro other h
  rw [List.mem_singleton.1 h]
  exact ⟨hregular, hchecks⟩

theorem mono {checks more : List String} {found : List Finding} (h : Concerns checks found)
    (hchecks : checks ⊆ more) : Concerns more found := by
  intro finding hfinding
  obtain ⟨hregular, hfails⟩ := h finding hfinding
  exact ⟨hregular, List.Subset.trans hfails hchecks⟩

/-- Whatever is found fails one of the checks. -/
theorem exists_failed_iff {checks : List String} {found : List Finding}
    (h : Concerns checks found) :
    (∃ finding ∈ found, ∃ name ∈ checks, name ∈ finding.failedChecks) ↔ found ≠ [] := by
  constructor
  · rintro ⟨finding, hfinding, _⟩
    exact List.ne_nil_of_mem hfinding
  · intro hne
    obtain ⟨finding, hfinding⟩ := List.exists_mem_of_ne_nil _ hne
    obtain ⟨name, hname⟩ := List.exists_mem_of_ne_nil _ (Checklist.failedChecks_ne_nil finding)
    exact ⟨finding, hfinding, name, (h finding hfinding).2 hname, hname⟩

/-- Findings that do not concern the item of a phrase do not open with it. -/
theorem filter_opening {checks : List String} {found : List Finding}
    (h : Concerns checks found) {name phrase : String}
    (hitem : ChecklistItem.beginning name phrase ∈ Checklist.items) (hname : name ∉ checks) :
    (found.map Finding.toIssue).filter
      (fun issue => phrase.toList.isPrefixOf issue.message.toList) = [] := by
  rw [List.filter_eq_nil_iff]
  intro issue hissue hopens
  obtain ⟨finding, hfinding, rfl⟩ := List.mem_map.1 hissue
  have hfails := (ChecklistItem.failedByMessage_beginning name phrase _).2
    (List.isPrefixOf_iff_prefix.1 hopens)
  obtain ⟨hregular, hchecks⟩ := h finding hfinding
  exact hname (hchecks ((Checklist.failed_iff hitem hregular).1 hfails))

end Concerns

namespace Rule

theorem missingMetadata_concerns (plan : Plan) :
    Concerns ["metadata_present"] (missingMetadata plan) := by
  unfold missingMetadata
  split
  · exact .nil _
  · exact .singleton trivial (List.Subset.refl _)

theorem missingSections_concerns (required : List String) (plan : Plan) :
    Concerns Checklist.containerChecks (missingSections required plan) := by
  unfold missingSections
  split
  · exact .singleton trivial (List.Subset.refl _)
  · exact .map fun _ _ => ⟨trivial, List.subset_cons_self _ _⟩

theorem placeholders_concerns (text : List Char) :
    Concerns ["no_placeholder_text"] (placeholders text) := by
  intro finding h
  obtain ⟨⟨token, pattern⟩, _, hfound⟩ := List.mem_filterMap.1 h
  obtain ⟨found, _, rfl⟩ := Option.map_eq_some_iff.1 hfound
  exact ⟨trivial, List.Subset.refl _⟩

theorem repeatedIds_concerns (population : TaskPopulation) :
    Concerns ["task_ids_unique"] (repeatedIds population) :=
  .map fun _ _ => ⟨trivial, List.Subset.refl _⟩

theorem unknownDependencies_concerns (population : TaskPopulation) :
    Concerns ["dependencies_valid"] (unknownDependencies population) :=
  .flatMap fun _ _ => .map fun _ _ => ⟨trivial, List.Subset.refl _⟩

theorem circularDependencies_concerns (population : TaskPopulation) :
    Concerns ["no_circular_dependencies"] (circularDependencies population) :=
  .map fun _ _ => ⟨trivial, List.Subset.refl _⟩

theorem thinDescriptions_concerns (population : TaskPopulation) :
    Concerns ["task_descriptions_detailed"] (thinDescriptions population) := by
  refine .flatMap fun task _ => ?_
  unfold thinDescription
  split
  · exact .nil _
  · dsimp only
    split_ifs
    · exact .singleton trivial (List.Subset.refl _)
    · exact .singleton trivial (List.Subset.refl _)
    · exact .nil _

theorem phaseFaults_array_concerns (phases : List Json) :
    Concerns ["phases_complete"] (phaseFaults (.array phases)) := by
  intro finding h
  obtain ⟨faults, hfaults, hfinding⟩ := List.mem_flatten.1 h
  obtain ⟨⟨phase, index⟩, _, rfl⟩ := List.mem_map.1 hfaults
  obtain ⟨field, _, rfl⟩ := List.mem_map.1 hfinding
  exact ⟨trivial, List.Subset.refl _⟩

def ratingChecks : List String :=
  ["complexity_ratings_valid", "effort_levels_valid", "no_deprecated_fields"]

theorem phaseFaults_keyed_concerns (phases : List (String × Json)) :
    Concerns ratingChecks (phaseFaults (.keyed phases)) := by
  refine .flatMap fun phase _ => .append (.append ?_ ?_) ?_
  all_goals
    intro finding h
    obtain ⟨value, _, rfl⟩ := Option.map_eq_some_iff.1 (Option.mem_toList.1 h)
    exact ⟨trivial, by simp [Finding.failedChecks, ratingChecks]⟩

theorem phaseFaults_concerns (layout : PhaseLayout) :
    Concerns ["phases_complete", "complexity_ratings_valid", "effort_levels_valid",
      "no_deprecated_fields"] (phaseFaults layout) := by
  cases layout with
  | array phases => exact (phaseFaults_array_concerns phases).mono (by simp)
  | keyed phases => exact (phaseFaults_keyed_concerns phases).mono (List.subset_cons_self _ _)
  | absent => exact .nil _

theorem vagueCriteria_concerns (plan : Plan) :
    Concerns ["success_criteria_measurable"] (vagueCriteria plan) := by
  unfold vagueCriteria
  split
  · exact .nil _
  · dsimp only
    split_ifs
    · exact .singleton trivial (List.Subset.refl _)
    · exact .nil _

theorem fewEdgeCases_concerns (plan : Plan) :
    Concerns ["edge_case_behavior_defined"] (fewEdgeCases plan) := by
  unfold fewEdgeCases
  split
  · exact .nil _
  · dsimp only
    split_ifs
    · exact .singleton trivial (List.Subset.refl _)
    · exact .nil _

def workorderChecks : List String :=
  ["workorder_id_present", "workorder_id_format_valid", "workorder_name_present",
   "workorder_feature_dir_present", "tasks_reference_workorder", "workorder_ids_consistent"]

theorem workorderIdFaults_concerns (id : Option Json) :
    Concerns workorderChecks (workorderIdFaults id) := by
  unfold workorderIdFaults
  split
  · exact .singleton trivial (by simp [Finding.failedChecks, workorderChecks])
  · split_ifs
    · exact .nil _
    · exact .singleton trivial (by simp [Finding.failedChecks, workorderChecks])

theorem missingWorkorderFields_concerns (workorder : Json.Members) :
    Concerns workorderChecks (missingWorkorderFields workorder) := by
  refine .map fun field hfield => ?_
  have hnamed : field = "name" ∨ field = "feature_dir" := by
    simpa using List.mem_of_mem_filter hfield
  refine ⟨hnamed, ?_⟩
  rcases hnamed with rfl | rfl <;> simp [Finding.failedChecks, workorderChecks]

theorem taskWorkorderFaults_concerns (id entry : Json) :
    Concerns workorderChecks (taskWorkorderFaults id entry) := by
  unfold taskWorkorderFaults
  split_ifs
  · exact .nil _
  · split
    · exact .nil _
    · split
      · exact .singleton trivial (by simp [Finding.failedChecks, workorderChecks])
      · split_ifs
        · exact .nil _
        · exact .singleton trivial (by simp [Finding.failedChecks, workorderChecks])

theorem workorderFaults_concerns (plan : Plan) :
    Concerns workorderChecks (workorderFaults plan) := by
  unfold workorderFaults
  split
  · exact .nil _
  · refine .append (.append (workorderIdFaults_concerns _) (missingWorkorderFields_concerns _)) ?_
    split
    · exact .nil _
    · exact .flatMap fun entry _ => taskWorkorderFaults_concerns _ entry

theorem ambiguousWording_concerns (text : List Char) :
    Concerns ["no_ambiguous_language"] (ambiguousWording text) :=
  .map fun _ _ => ⟨trivial, List.Subset.refl _⟩

theorem openQuestions_concerns (text : List Char) :
    Concerns ["no_unresolved_questions"] (openQuestions text) :=
  .map fun _ _ => ⟨trivial, List.Subset.refl _⟩

theorem timeEstimates_concerns (text : List Char) :
    Concerns ["no_time_estimates"] (timeEstimates text) := by
  unfold timeEstimates
  split
  · exact .nil _
  · exact .singleton trivial (List.Subset.refl _)

end Rule

namespace Validator

def findings (validator : Validator) (plan : Plan) : List Finding :=
  Check.all.flatMap (Check.findings validator.required plan)

/-- The rules in the order in which they are applied: the checks of each, and what it finds. -/
def rules (validator : Validator) (plan : Plan) : List (List String × List Finding) :=
  [(["metadata_present"], Rule.missingMetadata plan),
   (Checklist.containerChecks, Rule.missingSections validator.required plan),
   (["no_placeholder_text"], Rule.placeholders plan.toJson.chars),
   (["task_ids_unique"], Rule.repeatedIds plan.population),
   (["dependencies_valid"], Rule.unknownDependencies plan.population),
   (["no_circular_dependencies"], Rule.circularDependencies plan.population),
   (["task_descriptions_detailed"], Rule.thinDescriptions plan.population),
   (["phases_complete", "complexity_ratings_valid", "effort_levels_valid",
      "no_deprecated_fields"], Rule.phaseFaults plan.phaseLayout),
   (["success_criteria_measurable"], Rule.vagueCriteria plan),
   (["edge_case_behavior_defined"], Rule.fewEdgeCases plan),
   (Rule.workorderChecks, Rule.workorderFaults plan),
   (["no_ambiguous_language"], Rule.ambiguousWording plan.toJson.chars),
   (["no_unresolved_questions"], Rule.openQuestions plan.toJson.chars),
   (["no_time_estimates"], Rule.timeEstimates plan.toJson.chars)]

def rule? (validator : Validator) (plan : Plan) (check : String) :
    Option (List String × List Finding) :=
  (validator.rules plan).find? (·.1.contains check)

theorem mem_of_rule? {validator : Validator} {plan : Plan} {check : String}
    {rule : List String × List Finding} (h : validator.rule? plan check = some rule) :
    rule ∈ validator.rules plan :=
  List.mem_of_find?_eq_some h

variable (validator : Validator) (plan : Plan)

theorem issues_eq_map_findings :
    validator.issues plan = (validator.findings plan).map Finding.toIssue := by
  simp [issues, findings, Check.all, Check.run_eq]

theorem findings_eq_flatMap_rules :
    validator.findings plan = (validator.rules plan).flatMap Prod.snd := by
  simp [findings, rules, Check.all, Check.findings]

theorem rules_concern : ∀ rule ∈ validator.rules plan, Concerns rule.1 rule.2 := by
  simp only [rules, List.forall_mem_cons]
  exact ⟨Rule.missingMetadata_concerns _, Rule.missingSections_concerns _ _,
    Rule.placeholders_concerns _, Rule.repeatedIds_concerns _, Rule.unknownDependencies_concerns _,
    Rule.circularDependencies_concerns _, Rule.thinDescriptions_concerns _,
    Rule.phaseFaults_concerns _, Rule.vagueCriteria_concerns _, Rule.fewEdgeCases_concerns _,
    Rule.workorderFaults_concerns _, Rule.ambiguousWording_concerns _,
    Rule.openQuestions_concerns _, Rule.timeEstimates_concerns _, by simp⟩

/-- Every item of the checklist is the check of one rule. -/
theorem flatMap_rules_fst :
    (validator.rules plan).flatMap Prod.fst = Checklist.items.map ChecklistItem.name :=
  rfl

theorem rules_disjoint :
    (validator.rules plan).Pairwise fun rule other => List.Disjoint rule.1 other.1 := by
  have hnodup := Checklist.names_nodup
  rw [← flatMap_rules_fst validator plan, List.nodup_flatMap] at hnodup
  exact hnodup.2

theorem mem_findings_iff {finding : Finding} :
    finding ∈ validator.findings plan ↔ ∃ rule ∈ validator.rules plan, finding ∈ rule.2 := by
  rw [findings_eq_flatMap_rules, List.mem_flatMap]

theorem regular_of_mem_findings {finding : Finding} (h : finding ∈ validator.findings plan) :
    finding.Regular := by
  obtain ⟨rule, hrule, hfinding⟩ := (mem_findings_iff validator plan).1 h
  exact (rules_concern validator plan rule hrule finding hfinding).1

/-- A check is failed by its own rule only. -/
theorem mem_rule_of_failed {rule : List String × List Finding} (hrule : rule ∈ validator.rules plan)
    {name : String} (hname : name ∈ rule.1) {finding : Finding}
    (hfinding : finding ∈ validator.findings plan) (hfailed : name ∈ finding.failedChecks) :
    finding ∈ rule.2 := by
  obtain ⟨other, hother, hmem⟩ := (mem_findings_iff validator plan).1 hfinding
  have hshared : name ∈ other.1 :=
    (rules_concern validator plan other hother finding hmem).2 hfailed
  by_cases heq : rule = other
  · exact heq ▸ hmem
  · have : Std.Symm fun rule other : List String × List Finding => rule.1.Disjoint other.1 :=
      ⟨fun _ _ h _ hother hrule => h hrule hother⟩
    have hdisjoint := (rules_disjoint validator plan).forall hrule hother heq
    exact absurd hshared (hdisjoint hname)

theorem get?_checklist {item : ChecklistItem} (hitem : item ∈ Checklist.items) :
    (validator.validate plan).checklist.get? item.name =
      some (Checklist.passed (validator.issues plan) item) :=
  SortedMap.get?_ofList_map ChecklistItem.name _ Checklist.names_nodup hitem

theorem passed_eq_false_iff {item : ChecklistItem} (hitem : item ∈ Checklist.items) :
    Checklist.passed (validator.issues plan) item = false ↔
      ∃ finding ∈ validator.findings plan, item.name ∈ finding.failedChecks := by
  rw [Checklist.passed, Bool.not_eq_false', List.any_eq_true, issues_eq_map_findings]
  constructor
  · rintro ⟨issue, hissue, hfails⟩
    obtain ⟨finding, hfinding, rfl⟩ := List.mem_map.1 hissue
    exact ⟨finding, hfinding,
      (Checklist.failed_iff hitem (regular_of_mem_findings validator plan hfinding)).1 hfails⟩
  · rintro ⟨finding, hfinding, hfails⟩
    exact ⟨finding.toIssue, List.mem_map_of_mem hfinding,
      (Checklist.failed_iff hitem (regular_of_mem_findings validator plan hfinding)).2 hfails⟩

theorem passed_eq_false_iff_rule {item : ChecklistItem} (hitem : item ∈ Checklist.items)
    {rule : List String × List Finding} (hrule : rule ∈ validator.rules plan)
    (hname : item.name ∈ rule.1) :
    Checklist.passed (validator.issues plan) item = false ↔
      ∃ finding ∈ rule.2, item.name ∈ finding.failedChecks := by
  rw [passed_eq_false_iff validator plan hitem]
  constructor
  · rintro ⟨finding, hfinding, hfails⟩
    exact ⟨finding, mem_rule_of_failed validator plan hrule hname hfinding hfails, hfails⟩
  · rintro ⟨finding, hfinding, hfails⟩
    exact ⟨finding, (mem_findings_iff validator plan).2 ⟨rule, hrule, hfinding⟩, hfails⟩

theorem exists_rule_of_item {item : ChecklistItem} (hitem : item ∈ Checklist.items) :
    ∃ rule ∈ validator.rules plan, item.name ∈ rule.1 := by
  rw [← List.mem_flatMap, flatMap_rules_fst]
  exact List.mem_map_of_mem hitem

/-- A plan passes the only check of a rule exactly if that rule finds nothing. -/
theorem get?_checklist_eq_true_iff {name : String} {found : List Finding}
    (hrule : ([name], found) ∈ validator.rules plan) :
    (validator.validate plan).checklist.get? name = some true ↔ found = [] := by
  have hname : name ∈ Checklist.items.map ChecklistItem.name := by
    rw [← flatMap_rules_fst validator plan]
    exact List.mem_flatMap.2 ⟨_, hrule, List.mem_singleton_self name⟩
  obtain ⟨item, hitem, rfl⟩ := List.mem_map.1 hname
  have hfails : ∀ finding ∈ found, item.name ∈ finding.failedChecks := by
    intro finding hfinding
    have hchecks := (rules_concern validator plan _ hrule finding hfinding).2
    obtain ⟨name, hmem⟩ := List.exists_mem_of_ne_nil _ (Checklist.failedChecks_ne_nil finding)
    exact List.mem_singleton.1 (hchecks hmem) ▸ hmem
  rw [get?_checklist validator plan hitem, Option.some_inj, ← Bool.not_eq_false,
    passed_eq_false_iff_rule validator plan hitem hrule (List.mem_singleton_self _),
    List.eq_nil_iff_forall_not_mem]
  exact ⟨fun hnone finding hmem => hnone ⟨finding, hmem, hfails finding hmem⟩,
    fun hnone ⟨finding, hmem, _⟩ => hnone finding hmem⟩

/-- A test that only findings about the checks of a rule can pass picks out of all findings what it
picks out of those of the rule. -/
theorem filter_findings_eq {checks : List String} {found : List Finding}
    (hrule : (checks, found) ∈ validator.rules plan) {test : Finding → Bool}
    (htest : ∀ finding ∈ validator.findings plan, test finding = true →
      ∃ name ∈ finding.failedChecks, name ∈ checks) :
    (validator.findings plan).filter test = found.filter test := by
  have hother : ∀ other ∈ validator.rules plan, checks.Disjoint other.1 →
      other.2.filter test = [] := by
    intro other hmem hdisjoint
    rw [List.filter_eq_nil_iff]
    intro finding hfinding hpassed
    have hlisted := (mem_findings_iff validator plan).2 ⟨other, hmem, hfinding⟩
    obtain ⟨name, hname, hcheck⟩ := htest finding hlisted hpassed
    exact hdisjoint hcheck ((rules_concern validator plan other hmem finding hfinding).2 hname)
  -- The rule stands at one place of the list, and all other rules have checks of their own.
  have hdisjoint := rules_disjoint validator plan
  obtain ⟨front, back, hsplit⟩ := List.append_of_mem hrule
  rw [findings_eq_flatMap_rules, List.filter_flatMap]
  rw [hsplit] at hdisjoint hother ⊢
  rw [List.pairwise_append, List.pairwise_cons] at hdisjoint
  have hfront : front.flatMap (fun other => other.2.filter test) = [] := by
    rw [List.flatMap_eq_nil_iff]
    intro other hmem
    have hapart := hdisjoint.2.2 other hmem (checks, found) List.mem_cons_self
    exact hother other (List.mem_append_left _ hmem) (List.disjoint_comm.1 hapart)
  have hback : back.flatMap (fun other => other.2.filter test) = [] := by
    rw [List.flatMap_eq_nil_iff]
    intro other hmem
    have hapart := hdisjoint.2.1.1 other hmem
    exact hother other (List.mem_append_right _ (List.mem_cons_of_mem _ hmem)) hapart
  rw [List.flatMap_append, List.flatMap_cons, hfront, hback, List.nil_append, List.append_nil]

/-- The issues of a plan that fail the only check of a rule are those of that rule. -/
theorem filter_issues_eq {item : ChecklistItem} (hitem : item ∈ Checklist.items)
    {found : List Finding} (hrule : ([item.name], found) ∈ validator.rules plan) :
    (validator.issues plan).filter (fun issue => item.failedByMessage issue.message) =
      found.map Finding.toIssue := by
  have hfails : ∀ finding ∈ validator.findings plan,
      item.failedByMessage finding.toIssue.message = true →
        ∃ name ∈ finding.failedChecks, name ∈ [item.name] := by
    intro finding hfinding hfailed
    have hregular := regular_of_mem_findings validator plan hfinding
    exact ⟨item.name, (Checklist.failed_iff hitem hregular).1 hfailed, List.mem_singleton_self _⟩
  have hown : found.filter (fun finding => item.failedByMessage finding.toIssue.message) = found := by
    rw [List.filter_eq_self]
    intro finding hfinding
    obtain ⟨hregular, hchecks⟩ := rules_concern validator plan _ hrule finding hfinding
    obtain ⟨name, hname⟩ := List.exists_mem_of_ne_nil _ (Checklist.failedChecks_ne_nil finding)
    refine (Checklist.failed_iff hitem hregular).2 ?_
    exact List.mem_singleton.1 (hchecks hname) ▸ hname
  rw [issues_eq_map_findings, List.filter_map]
  exact congrArg (List.map Finding.toIssue)
    ((filter_findings_eq validator plan hrule hfails).trans hown)

/-- A plan passes every check exactly if nothing is found: each finding fails a check. -/
theorem all_passed_iff :
    (∀ item ∈ Checklist.items, Checklist.passed (validator.issues plan) item = true) ↔
      validator.issues plan = [] := by
  constructor
  · intro hall
    rw [issues_eq_map_findings, List.map_eq_nil_iff, List.eq_nil_iff_forall_not_mem]
    intro finding hfinding
    obtain ⟨name, hname⟩ := List.exists_mem_of_ne_nil _ (Checklist.failedChecks_ne_nil finding)
    obtain ⟨item, hitem, rfl⟩ := List.mem_map.1 (Checklist.failedChecks_subset finding hname)
    have hfails := (passed_eq_false_iff validator plan hitem).2 ⟨finding, hfinding, hname⟩
    exact absurd (hall item hitem) (by simp [hfails])
  · intro hnone item _
    simp [Checklist.passed, hnone]

/-- A check is failed by what its own rule finds and by nothing else, although it is read off the
messages. -/
theorem checklist_reflects_rules :
    (∀ issue ∈ (validator.validate plan).issues,
      ∃ rule ∈ validator.rules plan, ∃ finding ∈ rule.2, issue = finding.toIssue ∧
        Checklist.failedNames issue.message = finding.failedChecks ∧
        finding.failedChecks ⊆ rule.1 ∧
        (finding.failedChecks.length = 1 ∨ finding = .missingContainer ∧
          finding.failedChecks = ["sections_container_present", "all_sections_present"])) ∧
    (∀ item ∈ Checklist.items, ∃ rule ∈ validator.rules plan, item.name ∈ rule.1 ∧
      ∃ passed, (validator.validate plan).checklist.get? item.name = some passed ∧
        (passed = false ↔ ∃ finding ∈ rule.2, item.name ∈ finding.failedChecks)) ∧
    ((∀ item ∈ Checklist.items,
        (validator.validate plan).checklist.get? item.name = some true) ↔
      (validator.validate plan).issues = []) := by
  refine ⟨?_, ?_, ?_⟩
  · intro issue hissue
    have hmem : issue ∈ (validator.findings plan).map Finding.toIssue := by
      rw [← issues_eq_map_findings]
      exact hissue
    obtain ⟨finding, hfinding, rfl⟩ := List.mem_map.1 hmem
    obtain ⟨rule, hrule, hfound⟩ := (mem_findings_iff validator plan).1 hfinding
    obtain ⟨hregular, hchecks⟩ := rules_concern validator plan rule hrule finding hfound
    exact ⟨rule, hrule, finding, hfound, rfl, Checklist.failedNames_message hregular, hchecks,
      Checklist.length_failedChecks finding⟩
  · intro item hitem
    obtain ⟨rule, hrule, hname⟩ := exists_rule_of_item validator plan hitem
    exact ⟨rule, hrule, hname, _, get?_checklist validator plan hitem,
      passed_eq_false_iff_rule validator plan hitem hrule hname⟩
  · refine Iff.trans ?_ (all_passed_iff validator plan)
    refine forall₂_congr fun item hitem => ?_
    rw [get?_checklist validator plan hitem, Option.some_inj]

end Validator

end PlanAudit
