import PlanAudit.Proofs.CleanPlan
import PlanAudit.Proofs.WordingByPart

/-! What one missing section costs a plan that is faultless otherwise. -/
namespace PlanAudit

/-- An object without the members of a key. Other values have no members to lose. -/
def Json.without (name : String) : Json → Json
  | .object members => .object (members.filter (·.1 != name))
  | value => value

def Plan.withoutSection (plan : Plan) (name : String) : Plan :=
  ⟨plan.root.map fun member =>
    if member.1 = sectionsKey then (member.1, member.2.without name) else member⟩

theorem Json.Members.get?_filter_ne (members : Json.Members) (name key : String) :
    Json.Members.get? (members.filter (·.1 != name)) key =
      if key = name then none else members.get? key := by
  unfold Json.Members.get?
  induction members with
  | nil => simp
  | cons member members ih =>
    rw [List.filter_cons, lookup_cons_eq_ite]
    by_cases hname : member.1 = name
    · rw [if_neg (by simp [hname]), ih, hname]
      by_cases hkey : key = name <;> simp [hkey]
    · rw [if_pos (by simpa using hname), lookup_cons_eq_ite, ih]
      by_cases hkey : key = member.1
      · simp [hkey, hname]
      · simp [hkey]

/-- What is clean part by part stays clean when parts are taken out. -/
theorem Piecewise.withoutSection {clean : List Char → Prop} (h : Piecewise clean) {plan : Plan}
    (hplan : clean plan.toJson.chars) (name : String) :
    clean (plan.withoutSection name).toJson.chars := by
  have hwithout : ∀ value : Json, clean value.chars → clean (value.without name).chars := by
    intro value hvalue
    cases value with
    | object members =>
      exact (h.object _).2 fun member hmember =>
        (h.object members).1 hvalue member (List.mem_of_mem_filter hmember)
    | _ => exact hvalue
  refine (h.object _).2 fun member hmember => ?_
  obtain ⟨whole, hwhole, rfl⟩ := List.mem_map.1 hmember
  obtain ⟨hkey, hvalue⟩ := (h.object plan.root).1 hplan whole hwhole
  split_ifs
  · exact ⟨hkey, hwithout whole.2 hvalue⟩
  · exact ⟨hkey, hvalue⟩

namespace Plan

variable (plan : Plan) (name : String)

private theorem get?_root_withoutSection (key : String) :
    (plan.withoutSection name).root.get? key =
      (plan.root.get? key).map fun value =>
        if key = sectionsKey then value.without name else value := by
  unfold withoutSection Json.Members.get?
  induction plan.root with
  | nil => rfl
  | cons member members ih =>
    rw [List.map_cons, lookup_cons_eq_ite, lookup_cons_eq_ite, ih]
    by_cases hkey : key = member.1
    · by_cases hsections : member.1 = sectionsKey <;> simp [hkey, hsections]
    · by_cases hsections : member.1 = sectionsKey <;> simp_all

theorem sections?_withoutSection :
    (plan.withoutSection name).sections? =
      plan.sections?.map fun sections => sections.filter (·.1 != name) := by
  unfold sections?
  rw [get?_root_withoutSection]
  cases plan.root.get? sectionsKey with
  | none => rfl
  | some value => cases value <;> rfl

theorem section?_withoutSection (other : String) :
    (plan.withoutSection name).section? other =
      if other = name then none else plan.section? other := by
  unfold section?
  rw [sections?_withoutSection]
  cases plan.sections? with
  | none => simp
  | some sections => exact sections.get?_filter_ne name other

theorem metadata?_withoutSection : (plan.withoutSection name).metadata? = plan.metadata? := by
  have hkeys : ¬ metadataKey = sectionsKey := by decide
  unfold metadata?
  rw [get?_root_withoutSection]
  simp [hkeys]

theorem phaseLayout_withoutSection :
    (plan.withoutSection name).phaseLayout =
      if phasesKey = name then .absent else plan.phaseLayout := by
  unfold phaseLayout
  rw [section?_withoutSection]
  split_ifs <;> rfl

theorem flatTasks?_withoutSection :
    (plan.withoutSection name).flatTasks? =
      if taskSystemKey = name then none else plan.flatTasks? := by
  unfold flatTasks?
  rw [section?_withoutSection]
  split_ifs <;> rfl

theorem workorder?_withoutSection :
    (plan.withoutSection name).workorder? =
      if taskSystemKey = name then none else plan.workorder? := by
  unfold workorder?
  rw [section?_withoutSection]
  split_ifs <;> rfl

variable {plan name}

theorem section?_of_withoutSection {other : String} {content : Json}
    (h : (plan.withoutSection name).section? other = some content) :
    plan.section? other = some content := by
  rw [section?_withoutSection] at h
  split_ifs at h
  exact h

/-- A plan keeps its tasks or has none any more. It would take up those of the flat list instead of
those of the phases only if there is such a list. -/
theorem population_withoutSection (hflat : name = phasesKey → plan.flatTasks? = none) :
    (plan.withoutSection name).population = plan.population ∨
      (plan.withoutSection name).population.tasks = [] := by
  unfold population
  rw [phaseLayout_withoutSection, flatTasks?_withoutSection]
  by_cases hphases : phasesKey = name
  · right
    rw [if_pos hphases, hflat hphases.symm]
    simp [PhaseLayout.tasks, PhaseLayout.phases]
  · rw [if_neg hphases]
    cases htasks : plan.phaseLayout.tasks with
    | nil =>
      by_cases hsystem : taskSystemKey = name
      · right
        simp [hsystem]
      · left
        rw [if_neg hsystem]
    | cons task tasks => exact .inl rfl

end Plan

namespace Rule

variable {plan : Plan} {name : String}

/-- A rule on tasks that finds nothing in a plan still finds nothing when a section is taken out. -/
theorem population_silent_withoutSection {find : TaskPopulation → List Finding}
    (hnone : ∀ area, find ⟨area, []⟩ = []) (hplan : find plan.population = [])
    (hflat : name = phasesKey → plan.flatTasks? = none) :
    find (plan.withoutSection name).population = [] := by
  rcases Plan.population_withoutSection hflat with hsame | htasks
  · rw [hsame, hplan]
  · rw [← hnone (plan.withoutSection name).population.area, ← htasks]

theorem phaseFaults_withoutSection (h : phaseFaults plan.phaseLayout = []) :
    phaseFaults (plan.withoutSection name).phaseLayout = [] := by
  rw [Plan.phaseLayout_withoutSection]
  split_ifs
  · rfl
  · exact h

theorem vagueCriteria_withoutSection (h : vagueCriteria plan = []) :
    vagueCriteria (plan.withoutSection name) = [] := by
  rw [vagueCriteria_eq_nil_iff] at h ⊢
  intro content hcontent
  exact h content (Plan.section?_of_withoutSection hcontent)

theorem fewEdgeCases_withoutSection (h : fewEdgeCases plan = []) :
    fewEdgeCases (plan.withoutSection name) = [] := by
  rw [fewEdgeCases_eq_nil_iff] at h ⊢
  intro content hcontent
  exact h content (Plan.section?_of_withoutSection hcontent)

theorem workorderFaults_withoutSection (h : workorderFaults plan = []) :
    workorderFaults (plan.withoutSection name) = [] := by
  unfold workorderFaults workorderTasks at h ⊢
  rw [Plan.workorder?_withoutSection, Plan.flatTasks?_withoutSection]
  split_ifs
  · rfl
  · exact h

/-- Of the required sections only the one that was taken out is missing. -/
theorem missingSections_withoutSection {required : List String} (hnodup : required.Nodup)
    (hname : name ∈ required) (h : missingSections required plan = []) :
    missingSections required (plan.withoutSection name) = [.missingSection name] := by
  unfold missingSections at h ⊢
  rw [Plan.sections?_withoutSection]
  cases hsections : plan.sections? with
  | none => simp [hsections] at h
  | some sections =>
    simp only [hsections, List.map_eq_nil_iff, List.filter_eq_nil_iff] at h
    have hfilter :
        required.filter (fun other => !Json.Members.has (sections.filter (·.1 != name)) other) =
          required.filter (· == name) := by
      refine List.filter_congr fun other hother => ?_
      have hthere := h other hother
      unfold Json.Members.has at hthere ⊢
      rw [Json.Members.get?_filter_ne]
      by_cases heq : other = name
      · simp [heq]
      · rw [if_neg heq, beq_eq_false_iff_ne.2 heq]
        simpa [Option.isSome_iff_ne_none] using hthere
    simp only [Option.map_some]
    rw [hfilter, List.filter_beq, List.count_eq_one_of_mem hnodup hname]
    rfl

end Rule

namespace Validator

/-- If a plan has no issues, then whatever list of sections is required of it, a section that is
taken out is missed by the rule on sections alone. -/
theorem findings_withoutSection {validator : Validator} {plan : Plan} {name : String}
    (hplan : validator.issues plan = []) (hflat : name = phasesKey → plan.flatTasks? = none)
    (other : Validator) :
    other.findings (plan.withoutSection name) =
      Rule.missingSections other.required (plan.withoutSection name) := by
  rw [issues_eq_map_findings, List.map_eq_nil_iff, findings_eq_flatMap_rules,
    List.flatMap_eq_nil_iff] at hplan
  simp only [rules, List.forall_mem_cons, List.not_mem_nil, false_implies, implies_true,
    and_true] at hplan
  obtain ⟨hmetadata, _, hplaceholders, hids, hunknown, hcycles, hthin, hphases, hcriteria,
    htesting, hworkorder, hambiguous, hquestions, htime⟩ := hplan
  -- The second rule is the one on sections: it alone looks at what is required.
  have hmetadata' : Rule.missingMetadata (plan.withoutSection name) = [] := by
    rw [Rule.missingMetadata, Plan.metadata?_withoutSection]
    exact hmetadata
  rw [findings_eq_flatMap_rules]
  simp only [rules, List.flatMap_cons, List.flatMap_nil, hmetadata',
    Rule.piecewise_placeholders.withoutSection hplaceholders,
    Rule.population_silent_withoutSection (fun _ => rfl) hids hflat,
    Rule.population_silent_withoutSection (fun _ => rfl) hunknown hflat,
    Rule.population_silent_withoutSection (fun _ => rfl) hcycles hflat,
    Rule.population_silent_withoutSection (fun _ => rfl) hthin hflat,
    Rule.phaseFaults_withoutSection hphases, Rule.vagueCriteria_withoutSection hcriteria,
    Rule.fewEdgeCases_withoutSection htesting, Rule.workorderFaults_withoutSection hworkorder,
    Rule.piecewise_ambiguousWording.withoutSection hambiguous,
    Rule.piecewise_openQuestions.withoutSection hquestions,
    Rule.piecewise_timeEstimates.withoutSection htime, List.nil_append, List.append_nil]

private theorem issues_validate (validator : Validator) (plan : Plan) :
    (validator.validate plan).issues = validator.issues plan := rfl

theorem builtInSections_nodup : builtInSections.Nodup := by
  decide

/-- A plan without issues that loses one of its sections has one issue, which names the section. It
still passes. If it loses its phases, its tasks must not be taken from a flat list instead. -/
theorem clean_plan_without_section {plan : Plan}
    (hplan : (Setup.new.build.validate plan).issues = []) {name : String}
    (hname : name ∈ builtInSections) (hflat : name = phasesKey → plan.flatTasks? = none) :
    (Setup.new.build.validate (plan.withoutSection name)).issues =
        [⟨.critical, name, s!"Missing required section: {name}",
          s!"Add the {name} section to {sectionsKey}"⟩] ∧
      (Setup.new.build.validate (plan.withoutSection name)).score = 90 ∧
      (Setup.new.build.validate (plan.withoutSection name)).verdict = .pass ∧
      (Setup.new.build.validate (plan.withoutSection name)).approved = true := by
  have hmissing : Rule.missingSections builtInSections plan = [] :=
    (issues_eq_nil_iff_rules _ plan).1 hplan (Checklist.containerChecks, _)
      (List.mem_cons_of_mem _ List.mem_cons_self)
  have hissues : Setup.new.build.issues (plan.withoutSection name) =
      [(Finding.missingSection name).toIssue] := by
    rw [issues_eq_map_findings, findings_withoutSection hplan hflat]
    have hone := Rule.missingSections_withoutSection builtInSections_nodup hname hmissing
    exact congrArg (List.map Finding.toIssue) hone
  rw [validate, hissues]
  exact ⟨rfl, rfl, rfl, rfl⟩

/-- A plan that says little, but enough to have no issues. -/
def tersePlan : Plan :=
  ⟨[(metadataKey, .bool true),
    (sectionsKey, .object [
      ("0_preparation", .null), ("1_executive_summary", .null), ("2_risk_assessment", .null),
      ("3_current_state_analysis", .null), ("4_key_features", .null), (taskSystemKey, .null),
      (phasesKey, .array [.object [("deliverables", .array []), ("name", .string "core"),
        ("phase", .integer 1), ("tasks", .array [])]]),
      (testingKey, .string "null, empty, invalid, boundary, error"),
      (criteriaKey, .string "1 < 2"), ("9_implementation_checklist", .null)])]⟩

theorem issues_tersePlan : Setup.new.build.issues tersePlan = [] := by
  decide +kernel

/-- Without its phases the plan has no tasks to take up. -/
theorem terse_plan_without_phases :
    (Setup.new.build.validate tersePlan).issues = [] ∧ phasesKey ∈ builtInSections ∧
      tersePlan.flatTasks? = none ∧
      (Setup.new.build.validate (tersePlan.withoutSection phasesKey)).score = 90 ∧
      (Setup.new.build.validate (tersePlan.withoutSection phasesKey)).approved = true := by
  have hname : phasesKey ∈ builtInSections := by decide
  have hclean : (Setup.new.build.validate tersePlan).issues = [] := by
    rw [issues_validate]
    exact issues_tersePlan
  have hreport := clean_plan_without_section hclean hname fun _ => rfl
  exact ⟨hclean, hname, rfl, hreport.2.1, hreport.2.2.2⟩

end Validator

end PlanAudit
