import PlanAudit.Proofs.PlanContents
import PlanAudit.Proofs.RuleChecks
import PlanAudit.Proofs.Score
import PlanAudit.Proofs.SilentRules
import PlanAudit.Proofs.WorkorderCheck

/-! The plans on which a report has no issues, which are those that get the greatest score. -/
namespace PlanAudit

def Needs (tasks : List Task) (id target : String) : Prop :=
  ∃ task ∈ tasks, task.id = some id ∧ target ∈ task.dependsOn

structure SoundTasks (tasks : List Task) : Prop where
  ids : (tasks.filterMap Task.id).Nodup
  dependencies : ∀ task ∈ tasks, ∀ id ∈ task.dependsOn, ∃ other ∈ tasks, other.id = some id
  acyclic : ∀ id, ¬ Relation.TransGen (Needs tasks) id id
  descriptions : ∀ task ∈ tasks, ∀ description, task.description = some description →
    20 ≤ (Text.words description.toList).length

structure SoundWorkorder (system workorder : Json.Members) : Prop where
  id : ∃ id, workorder.get? "id" = some (.string id) ∧ IsWorkorderId id ∧
    ∀ tasks, Workorder.EffectiveTasks system workorder tasks →
      ∀ members : Json.Members, .object members ∈ tasks →
        members.get? "workorder_id" = some (.string id)
  name : workorder.has "name"
  featureDir : workorder.has "feature_dir"

/-- What is asked of a plan with the required sections. -/
structure Clean (required : List String) (plan : Plan) : Prop where
  metadata : ∃ block, plan.root.get? metadataKey = some block ∧ block ≠ .null
  sections : ∃ sections : Json.Members, plan.root.get? sectionsKey = some (.object sections) ∧
    ∀ name ∈ required, sections.has name
  placeholders : ∀ entry ∈ Vocabulary.placeholders, ¬ entry.2.Matches plan.text.toList
  tasks : ∃ tasks, plan.Declares tasks ∧ SoundTasks tasks
  listedPhases : ∀ phases, plan.ListsPhases phases → ∀ phase ∈ phases, CompletePhase phase
  keyedPhases : ∀ members, plan.KeysPhases members →
    ∀ entry ∈ members, IsPhase entry → SoundRatings entry.2
  criteria : ∀ content, plan.HasSection criteriaKey content →
    3 ≤ Vocabulary.measurable.count content.chars
  testing : ∀ content, plan.HasSection testingKey content →
    5 ≤ Vocabulary.edgeCases.count content.chars
  workorder : ∀ system workorder : Json.Members, plan.HasSection taskSystemKey (.object system) →
    system.get? "workorder" = some (.object workorder) → SoundWorkorder system workorder
  ambiguous : ¬ Vocabulary.ambiguous.Matches plan.text.toList
  questions : ¬ Vocabulary.questions.Matches plan.text.toList
  time : ∀ keyword ∈ Vocabulary.timeKeywords,
    ¬ keyword.toList <:+: Vocabulary.timeFalsePositives.replaceIn ' ' (Text.lower plan.text.toList)

theorem needs_eq_mem_dependencies (tasks : List Task) :
    Needs tasks = fun id target => target ∈ (DependencyGraph.ofTasks tasks).dependencies id := by
  funext id target
  exact propext DependencyGraph.mem_dependencies_ofTasks_iff.symm

theorem SoundTasks.of_perm {tasks others : List Task} (hperm : tasks.Perm others)
    (h : SoundTasks tasks) : SoundTasks others := by
  have hneeds : Needs others = Needs tasks := by
    funext id target
    simp only [Needs, hperm.mem_iff]
  refine ⟨(hperm.filterMap _).nodup_iff.1 h.ids, ?_, hneeds ▸ h.acyclic, ?_⟩
  · intro task htask id hid
    obtain ⟨other, hother, hdeclares⟩ := h.dependencies task (hperm.mem_iff.2 htask) id hid
    exact ⟨other, hperm.mem_iff.1 hother, hdeclares⟩
  · exact fun task htask => h.descriptions task (hperm.mem_iff.2 htask)

/-- Tasks are sound exactly if the rules on them find nothing. -/
theorem soundTasks_iff (population : TaskPopulation) :
    SoundTasks population.tasks ↔
      Rule.repeatedIds population = [] ∧ Rule.unknownDependencies population = [] ∧
        Rule.circularDependencies population = [] ∧ Rule.thinDescriptions population = [] := by
  rw [Rule.repeatedIds_eq_nil_iff, Rule.unknownDependencies_eq_nil_iff,
    Rule.circularDependencies_eq_nil_iff, Rule.thinDescriptions_eq_nil_iff]
  have hids : ∀ id, id ∈ population.ids ↔ ∃ other ∈ population.tasks, other.id = some id :=
    fun id => List.mem_filterMap
  have hacyclic : (DependencyGraph.ofTasks population.tasks).Acyclic ↔
      ∀ id, ¬ Relation.TransGen (Needs population.tasks) id id := by
    rw [needs_eq_mem_dependencies]
    rfl
  simp only [hids, hacyclic]
  exact ⟨fun h => ⟨h.ids, h.dependencies, h.acyclic, h.descriptions⟩,
    fun h => ⟨h.1, h.2.1, h.2.2.1, h.2.2.2⟩⟩

namespace Plan

variable (plan : Plan)

theorem exists_soundTasks_iff :
    (∃ tasks, plan.Declares tasks ∧ SoundTasks tasks) ↔ SoundTasks plan.population.tasks := by
  constructor
  · rintro ⟨tasks, hdeclares, hsound⟩
    exact hsound.of_perm hdeclares.perm
  · intro hsound
    exact ⟨_, plan.declares_population, hsound⟩

theorem sound_iff_of_keysPhases {plan : Plan} {members : Json.Members}
    (h : plan.KeysPhases members) :
    plan.phaseLayout.Sound ↔ ∀ entry ∈ members, IsPhase entry → SoundRatings entry.2 := by
  have hmem : ∀ entry, entry ∈ PhaseLayout.keyedPhases members ↔ entry ∈ members ∧ IsPhase entry := by
    intro entry
    rw [(keyedPhases_perm members).mem_iff, List.mem_filter, decide_eq_true_eq]
  simp only [← and_imp, ← hmem]
  rw [phaseLayout_of_keysPhases h]
  split_ifs with hnone
  · simp [hnone, PhaseLayout.Sound]
  · rfl

theorem phaseLayout_sound_iff :
    plan.phaseLayout.Sound ↔
      (∀ phases, plan.ListsPhases phases → ∀ phase ∈ phases, CompletePhase phase) ∧
      ∀ members, plan.KeysPhases members →
        ∀ entry ∈ members, IsPhase entry → SoundRatings entry.2 := by
  rcases plan.phases_cases with ⟨phases, hlisted⟩ | ⟨members, hkeyed⟩ | ⟨hlisted, hkeyed⟩
  · rw [phaseLayout_of_listsPhases hlisted]
    constructor
    · intro hsound
      exact ⟨fun others h => hlisted.unique h ▸ hsound,
        fun members h => absurd h hlisted.not_keysPhases⟩
    · exact fun h => h.1 phases hlisted
  · rw [sound_iff_of_keysPhases hkeyed]
    constructor
    · intro hsound
      exact ⟨fun phases h => absurd hkeyed h.not_keysPhases,
        fun others h => hkeyed.unique h ▸ hsound⟩
    · exact fun h => h.2 members hkeyed
  · rw [phaseLayout_of_absent hlisted hkeyed]
    exact ⟨fun _ => ⟨fun phases h => absurd h (hlisted phases),
      fun members h => absurd h (hkeyed members)⟩, fun _ => trivial⟩

theorem soundWorkorder_iff {system workorder : Json.Members}
    (h : plan.DeclaresWorkorder system workorder) :
    SoundWorkorder system workorder ↔ Rule.workorderFaults plan = [] := by
  have hworkorder := (plan.workorder?_eq_some_iff workorder).2 ⟨system, h⟩
  have htasks := Workorder.effectiveTasks_workorderTasks h
  simp only [Rule.workorderFaults, hworkorder, List.append_eq_nil_iff,
    Rule.workorderIdFaults_eq_nil_iff, Rule.missingWorkorderFields_eq_nil_iff,
    Vocabulary.matches_workorderId_iff]
  constructor
  · rintro ⟨⟨id, hid, hform, hnames⟩, hname, hdir⟩
    refine ⟨⟨⟨id, hid, hform⟩, hname, hdir⟩, ?_⟩
    rw [hid]
    refine List.flatMap_eq_nil_iff.2 fun entry hmem => ?_
    refine (Rule.taskWorkorderFaults_eq_nil_iff id entry).2 ?_
    rintro members rfl
    exact hnames _ htasks members hmem
  · rintro ⟨⟨⟨id, hid, hform⟩, hname, hdir⟩, hfaults⟩
    rw [hid] at hfaults
    refine ⟨⟨id, hid, hform, fun tasks heffective members hmem => ?_⟩, hname, hdir⟩
    rw [heffective.unique htasks] at hmem
    have hentry := List.flatMap_eq_nil_iff.1 hfaults _ hmem
    exact (Rule.taskWorkorderFaults_eq_nil_iff id _).1 hentry members rfl

theorem workorderFaults_eq_nil_iff :
    Rule.workorderFaults plan = [] ↔
      ∀ system workorder : Json.Members, plan.HasSection taskSystemKey (.object system) →
        system.get? "workorder" = some (.object workorder) → SoundWorkorder system workorder := by
  constructor
  · intro hsilent system workorder hsection hget
    exact (plan.soundWorkorder_iff ⟨hasSection_iff.1 hsection, hget⟩).2 hsilent
  · intro hsound
    cases hworkorder : plan.workorder? with
    | none => rw [Rule.workorderFaults, hworkorder]
    | some workorder =>
      obtain ⟨system, hdeclares⟩ := (plan.workorder?_eq_some_iff workorder).1 hworkorder
      have hsection := hasSection_iff.2 hdeclares.inSection
      exact (plan.soundWorkorder_iff hdeclares).1
        (hsound system workorder hsection hdeclares.inSystem)

end Plan

namespace Validator

variable (validator : Validator) (plan : Plan)

theorem issues_eq_nil_iff_rules :
    validator.issues plan = [] ↔ ∀ rule ∈ validator.rules plan, rule.2 = [] := by
  rw [issues_eq_map_findings, List.map_eq_nil_iff, findings_eq_flatMap_rules,
    List.flatMap_eq_nil_iff]

theorem issues_eq_nil_iff_clean :
    validator.issues plan = [] ↔ Clean validator.required plan := by
  simp only [issues_eq_nil_iff_rules, rules, List.forall_mem_cons, List.not_mem_nil,
    false_implies, implies_true, and_true, Plan.chars_toJson,
    Rule.missingMetadata_eq_nil_iff, Rule.missingSections_eq_nil_iff, Rule.placeholders_eq_nil_iff,
    Rule.phaseFaults_eq_nil_iff, plan.phaseLayout_sound_iff, Rule.vagueCriteria_eq_nil_iff,
    Rule.fewEdgeCases_eq_nil_iff, plan.workorderFaults_eq_nil_iff,
    Rule.ambiguousWording_eq_nil_iff, Rule.openQuestions_eq_nil_iff, Rule.timeEstimates_eq_nil_iff,
    ← Plan.hasSection_iff]
  constructor
  · rintro ⟨hmetadata, hsections, hplaceholders, hids, hdependencies, hacyclic, hdescriptions,
      ⟨hlisted, hkeyed⟩, hcriteria, htesting, hworkorder, hambiguous, hquestions, htime⟩
    have htasks := (soundTasks_iff _).2 ⟨hids, hdependencies, hacyclic, hdescriptions⟩
    exact ⟨hmetadata, hsections, hplaceholders, plan.exists_soundTasks_iff.2 htasks, hlisted, hkeyed,
      hcriteria, htesting, hworkorder, hambiguous, hquestions, htime⟩
  · intro h
    obtain ⟨hids, hdependencies, hacyclic, hdescriptions⟩ :=
      (soundTasks_iff _).1 (plan.exists_soundTasks_iff.1 h.tasks)
    exact ⟨h.metadata, h.sections, h.placeholders, hids, hdependencies, hacyclic, hdescriptions,
      ⟨h.listedPhases, h.keyedPhases⟩, h.criteria, h.testing, h.workorder, h.ambiguous,
      h.questions, h.time⟩

/-- A report has no issues exactly if the plan is clean, and exactly then its score is 100. -/
theorem report_flawless_iff_clean :
    ((validator.validate plan).issues = [] ↔ Clean validator.required plan) ∧
      ((validator.validate plan).score = 100 ↔ (validator.validate plan).issues = []) := by
  refine ⟨issues_eq_nil_iff_clean validator plan, ?_⟩
  rw [← UInt8.toNat_inj]
  exact scoreOf_eq_maxScore_iff (validator.issues plan)

end Validator

end PlanAudit
