import PlanAudit.Check
import PlanAudit.Proofs.Dependency.CycleSearch
import PlanAudit.Proofs.Occurrence

/-! What a plan is like when a rule finds nothing in it, rule by rule. -/
namespace PlanAudit

namespace Text

/-- The words of a text: what stands between its blanks, where that is not empty. -/
def words (text : List Char) : List (List Char) :=
  (text.splitOnP isBlank).filter (!·.isEmpty)

/-- Splitting goes on with the characters of the current word in reverse, and counting with whether
there are any. -/
theorem wordStarts_splitOnPPrepend (cs current : List Char) :
    ((cs.splitOnPPrepend isBlank current).filter (!·.isEmpty)).length =
      wordStarts (!current.isEmpty) cs + if current.isEmpty then 0 else 1 := by
  induction cs generalizing current with
  | nil => cases current <;> simp [wordStarts]
  | cons c cs ih =>
    cases hblank : isBlank c with
    | true =>
      have hrest := ih []
      rw [List.splitOnPPrepend_nil_right] at hrest
      rw [List.splitOnPPrepend_cons_pos hblank]
      cases current <;> simp [wordStarts, hblank, hrest]
    | false =>
      rw [List.splitOnPPrepend_cons_neg hblank, ih]
      cases current <;> simp [wordStarts, hblank]

theorem wordCount_eq_length_words (s : String) : wordCount s = (words s.toList).length := by
  have h := wordStarts_splitOnPPrepend s.toList []
  rw [List.splitOnPPrepend_nil_right] at h
  exact h.symm

end Text

namespace Pattern

theorem matchesIn_eq_nil_iff (p : Pattern) (text : List Char) :
    p.matchesIn text = [] ↔ ¬ p.Matches text := by
  rw [← occursIn_eq_false_iff, occursIn, Bool.not_eq_false', List.isEmpty_iff]

end Pattern

namespace Json

/-- Only the same text is the same as a text. -/
theorem same_string_iff (value : Json) (s : String) :
    value.same (.string s) = true ↔ value = .string s := by
  cases value <;> simp [same]

end Json

theorem Plan.chars_toJson (plan : Plan) : plan.toJson.chars = plan.text.toList := by
  rw [Plan.text, Json.compact, String.toList_ofList]

namespace Rule

theorem missingMetadata_eq_nil_iff (plan : Plan) :
    missingMetadata plan = [] ↔
      ∃ block, plan.root.get? metadataKey = some block ∧ block ≠ .null := by
  have hnull : ∀ block : Json, (!block.isNull) = true ↔ block ≠ .null := by
    intro block
    cases block <;> simp [Json.isNull]
  unfold missingMetadata Plan.metadata?
  cases plan.root.get? metadataKey with
  | none => simp
  | some block => simp [Option.filter, hnull]

theorem missingSections_eq_nil_iff (required : List String) (plan : Plan) :
    missingSections required plan = [] ↔
      ∃ sections : Json.Members, plan.root.get? sectionsKey = some (.object sections) ∧
        ∀ name ∈ required, sections.has name := by
  simp only [← Plan.sections?_eq_some_iff]
  unfold missingSections
  cases plan.sections? with
  | none => simp
  | some sections => simp [List.filter_eq_nil_iff]

theorem placeholders_eq_nil_iff (text : List Char) :
    placeholders text = [] ↔ ∀ entry ∈ Vocabulary.placeholders, ¬ entry.2.Matches text := by
  simp [placeholders, List.filterMap_eq_nil_iff, Pattern.find?, List.head?_eq_none_iff,
    Pattern.matchesIn_eq_nil_iff]

private theorem take_reportLimit_eq_nil_iff (found : List Match) :
    found.take reportLimit = [] ↔ found = [] := by
  rw [List.take_eq_nil_iff]
  exact ⟨fun h => h.resolve_left (by decide), .inr⟩

theorem ambiguousWording_eq_nil_iff (text : List Char) :
    ambiguousWording text = [] ↔ ¬ Vocabulary.ambiguous.Matches text := by
  rw [ambiguousWording, List.map_eq_nil_iff, take_reportLimit_eq_nil_iff,
    Pattern.matchesIn_eq_nil_iff]

theorem openQuestions_eq_nil_iff (text : List Char) :
    openQuestions text = [] ↔ ¬ Vocabulary.questions.Matches text := by
  rw [openQuestions, List.map_eq_nil_iff, take_reportLimit_eq_nil_iff,
    Pattern.matchesIn_eq_nil_iff]

theorem timeEstimates_eq_nil_iff (text : List Char) :
    timeEstimates text = [] ↔
      ∀ keyword ∈ Vocabulary.timeKeywords,
        ¬ keyword.toList <:+: Vocabulary.timeFalsePositives.replaceIn ' ' (Text.lower text) := by
  have hkeywords : timeEstimates text = [] ↔ timeKeywordsIn text = [] := by
    unfold timeEstimates
    split <;> simp_all
  rw [hkeywords]
  simp [timeKeywordsIn, List.filter_eq_nil_iff, Pattern.occursIn_eq_false_iff,
    Pattern.matches_literal_iff]

/-- Nothing is repeated exactly if the entries differ from each other and from those seen before. -/
theorem repeats_eq_nil_iff (seen : Std.HashSet String) (ids : List String) :
    repeats seen ids = [] ↔ ids.Nodup ∧ ∀ id ∈ ids, id ∉ seen := by
  induction ids generalizing seen with
  | nil => simp [repeats]
  | cons id ids ih =>
    rw [repeats]
    split_ifs with hseen
    · simp [Std.HashSet.contains_iff_mem.1 hseen]
    · have hnew : id ∉ seen := fun hmem => hseen (Std.HashSet.contains_iff_mem.2 hmem)
      rw [ih, List.nodup_cons, List.forall_mem_cons]
      simp only [Std.HashSet.mem_insert, beq_iff_eq, not_or]
      constructor
      · rintro ⟨hnodup, hall⟩
        exact ⟨⟨fun hmem => (hall id hmem).1 rfl, hnodup⟩, hnew, fun other h => (hall other h).2⟩
      · rintro ⟨⟨hfresh, hnodup⟩, _, hall⟩
        exact ⟨hnodup, fun other h => ⟨fun heq => hfresh (heq ▸ h), hall other h⟩⟩

theorem repeatedIds_eq_nil_iff (population : TaskPopulation) :
    repeatedIds population = [] ↔ population.ids.Nodup := by
  rw [repeatedIds, List.map_eq_nil_iff, repeats_eq_nil_iff]
  simp

theorem unknownDependencies_eq_nil_iff (population : TaskPopulation) :
    unknownDependencies population = [] ↔
      ∀ task ∈ population.tasks, ∀ id ∈ task.dependsOn, id ∈ population.ids := by
  simp [unknownDependencies, List.flatMap_eq_nil_iff, List.filter_eq_nil_iff]

theorem circularDependencies_eq_nil_iff (population : TaskPopulation) :
    circularDependencies population = [] ↔
      (DependencyGraph.ofTasks population.tasks).Acyclic := by
  rw [circularDependencies, List.map_eq_nil_iff,
    (DependencyGraph.wellFormed_ofTasks _).backEdges_eq_nil_iff]

theorem thinDescriptions_eq_nil_iff (population : TaskPopulation) :
    thinDescriptions population = [] ↔
      ∀ task ∈ population.tasks, ∀ description, task.description = some description →
        20 ≤ (Text.words description.toList).length := by
  rw [thinDescriptions, List.flatMap_eq_nil_iff]
  refine forall₂_congr fun task _ => ?_
  unfold thinDescription
  cases task.description with
  | none => simp
  | some description =>
    have hdetailed : detailedWords = 20 := rfl
    have hless : leastWords < detailedWords := by decide
    simp only [Option.some.injEq, forall_eq', ← Text.wordCount_eq_length_words]
    split_ifs
    · simp only [false_iff]
      omega
    · simp only [false_iff]
      omega
    · simp only [true_iff]
      omega

end Rule

def CompletePhase (phase : Json) : Prop :=
  ∀ field ∈ ["phase", "name", "tasks", "deliverables"], (phase.get? field).isSome

/-- A phase with a key needs no rating, but those that it has are of the right kind, and its duration is
not given. -/
structure SoundRatings (phase : Json) : Prop where
  complexity : ∀ value, phase.get? "complexity" = some value →
    ∃ level ∈ ["low", "medium", "high", "very_high"], value = .string level
  effort : ∀ value, phase.get? "effort_level" = some value →
    ∃ n, 1 ≤ n ∧ n ≤ 5 ∧ value = .integer n
  duration : phase.get? "duration" = none

def PhaseLayout.Sound : PhaseLayout → Prop
  | .array phases => ∀ phase ∈ phases, CompletePhase phase
  | .keyed phases => ∀ entry ∈ phases, SoundRatings entry.2
  | .absent => True

namespace Rule

private theorem isComplexity_iff (value : Json) :
    isComplexity value = true ↔
      ∃ level ∈ ["low", "medium", "high", "very_high"], value = .string level := by
  cases value <;> simp [isComplexity, complexityLevels]

private theorem isEffort_iff (value : Json) :
    isEffort value = true ↔ ∃ n, 1 ≤ n ∧ n ≤ 5 ∧ value = .integer n := by
  cases value <;> simp [isEffort]

theorem wrongRatings_eq_nil_iff (key : String) (phase : Json) :
    wrongRatings key phase = [] ↔ SoundRatings phase := by
  have hsound : SoundRatings phase ↔
      (∀ value, phase.get? "complexity" = some value → isComplexity value = true) ∧
      (∀ value, phase.get? "effort_level" = some value → isEffort value = true) ∧
      phase.get? "duration" = none := by
    simp only [isComplexity_iff, isEffort_iff]
    exact ⟨fun h => ⟨h.complexity, h.effort, h.duration⟩, fun h => ⟨h.1, h.2.1, h.2.2⟩⟩
  rw [hsound]
  simp [wrongRatings, Option.toList_eq_nil_iff, Option.filter_eq_none_iff]

theorem phaseFaults_eq_nil_iff (layout : PhaseLayout) : phaseFaults layout = [] ↔ layout.Sound := by
  cases layout with
  | array phases =>
    have hfields : ∀ phase index, missingFields phase index = [] ↔ CompletePhase phase := by
      simp [missingFields, phaseFields, CompletePhase, List.filter_eq_nil_iff,
        Option.isSome_iff_ne_none]
    simp only [phaseFaults, List.flatten_eq_nil_iff, List.forall_mem_map, hfields,
      PhaseLayout.Sound]
    constructor
    · intro h phase hphase
      obtain ⟨index, hindex⟩ := List.mem_iff_getElem?.1 hphase
      exact h _ (List.mk_mem_zipIdx_iff_getElem?.2 hindex)
    · intro h entry hentry
      exact h _ (List.fst_mem_of_mem_zipIdx hentry)
  | keyed phases => simp only [phaseFaults, List.flatMap_eq_nil_iff, wrongRatings_eq_nil_iff,
      PhaseLayout.Sound]
  | absent => simp [phaseFaults, PhaseLayout.Sound]

theorem vagueCriteria_eq_nil_iff (plan : Plan) :
    vagueCriteria plan = [] ↔ ∀ content, plan.section? criteriaKey = some content →
      3 ≤ Vocabulary.measurable.count content.chars := by
  unfold vagueCriteria countIn leastMeasurable
  cases plan.section? criteriaKey <;> simp

theorem fewEdgeCases_eq_nil_iff (plan : Plan) :
    fewEdgeCases plan = [] ↔ ∀ content, plan.section? testingKey = some content →
      5 ≤ Vocabulary.edgeCases.count content.chars := by
  unfold fewEdgeCases countIn leastEdgeCases
  cases plan.section? testingKey <;> simp

theorem workorderIdFaults_eq_nil_iff (id : Option Json) :
    workorderIdFaults id = [] ↔
      ∃ s, id = some (.string s) ∧ Vocabulary.workorderId.Matches s.toList := by
  cases id with
  | none => simp [workorderIdFaults]
  | some value =>
    have hform : isWorkorderId value = true ↔
        ∃ s, value = .string s ∧ Vocabulary.workorderId.Matches s.toList := by
      cases value <;> simp [isWorkorderId, Pattern.occursIn_iff_matches]
    simp only [workorderIdFaults, Option.some.injEq, ← hform]
    split_ifs <;> simp_all

theorem missingWorkorderFields_eq_nil_iff (workorder : Json.Members) :
    missingWorkorderFields workorder = [] ↔
      workorder.has "name" ∧ workorder.has "feature_dir" := by
  simp [missingWorkorderFields, List.filter_eq_nil_iff]

theorem taskWorkorderFaults_eq_nil_iff (id : String) (entry : Json) :
    taskWorkorderFaults (.string id) entry = [] ↔
      ∀ members : Json.Members, entry = .object members →
        members.get? "workorder_id" = some (.string id) := by
  cases entry with
  | object members =>
    simp only [taskWorkorderFaults, Json.isObject, Task.ofJson?, Json.get?, Json.object.injEq,
      forall_eq']
    cases Json.Members.get? members "workorder_id" <;> simp [Json.same_string_iff]
  | _ => simp [taskWorkorderFaults, Json.isObject]

end Rule

end PlanAudit
