import Mathlib.Data.List.Basic
import Mathlib.Tactic.SplitIfs
import PlanAudit.Check

/-! What the inspections raise. Each of them leaves the issues that are there as they are and adds those
of its findings behind them. -/
namespace PlanAudit

namespace Inspection

variable {α β : Type}

/-- The work gives the value, and it adds the issues of the findings to whatever list it is given. -/
def Raises (work : Inspection α) (value : α) (findings : List Finding) : Prop :=
  ∀ issues : List Issue, work.run issues = (value, issues ++ findings.map Finding.toIssue)

theorem raises_pure (value : α) : Raises (pure value) value [] := by
  intro issues
  rw [List.map_nil, List.append_nil]
  rfl

theorem raises_raise (finding : Finding) : Raises (raise finding) () [finding] := by
  intro issues
  rfl

theorem Raises.bind {work : Inspection α} {next : α → Inspection β} {value : α} {result : β}
    {findings later : List Finding} (h : Raises work value findings)
    (hnext : Raises (next value) result later) :
    Raises (work >>= next) result (findings ++ later) := by
  intro issues
  have hrun : (work >>= next).run issues =
      (next value).run (issues ++ findings.map Finding.toIssue) := by
    rw [StateT.run_bind, h issues]
    rfl
  rw [hrun, hnext, List.map_append, List.append_assoc]

theorem Raises.bind_pure {work : Inspection α} {value : α} {findings : List Finding}
    (h : Raises work value findings) (result : β) :
    Raises (work >>= fun _ => pure result) result findings := by
  rw [← List.append_nil findings]
  exact h.bind (raises_pure result)

/-- At most one issue, and then what comes next. -/
theorem Raises.guard {p : Prop} [Decidable p] {next : Unit → Inspection β} {result : β}
    {later : List Finding} (hnext : Raises (next ()) result later) (finding : Finding) :
    Raises (if p then raise finding >>= next else next ()) result
      ((if p then [finding] else []) ++ later) := by
  split_ifs
  · exact (raises_raise finding).bind hnext
  · exact hnext

theorem raises_if (p : Prop) [Decidable p] (finding : Finding) (result : β) :
    Raises (if p then raise finding >>= fun _ => pure result else pure result) result
      (if p then [finding] else []) := by
  split_ifs
  · exact (raises_raise finding).bind_pure result
  · exact raises_pure result

/-- A loop raises what its rounds raise, one after the other. -/
theorem raises_forIn {entries : List α} {body : α → PUnit → Inspection (ForInStep PUnit)}
    {findings : α → List Finding}
    (h : ∀ entry ∈ entries, Raises (body entry ⟨⟩) (.yield ⟨⟩) (findings entry)) :
    Raises (forIn entries PUnit.unit body) ⟨⟩ (entries.flatMap findings) := by
  induction entries with
  | nil => exact raises_pure _
  | cons entry entries ih =>
    obtain ⟨hentry, hrest⟩ := List.forall_mem_cons.1 h
    rw [List.forIn_cons, List.flatMap_cons]
    exact hentry.bind (ih hrest)

theorem raises_forIn_raise (entries : List α) (finding : α → Finding) :
    Raises (forIn entries PUnit.unit fun entry _ => do
      raise (finding entry)
      pure (.yield ⟨⟩)) ⟨⟩ (entries.map finding) := by
  rw [List.map_eq_flatMap]
  exact raises_forIn fun entry _ => (raises_raise _).bind_pure _

/-- The rounds of a loop that raise an issue are those of the entries that pass a test. -/
theorem raises_forIn_if (entries : List α) (test : α → Bool) (finding : α → Finding) :
    Raises (forIn entries PUnit.unit fun entry _ =>
      if test entry = true then do
        raise (finding entry)
        pure (.yield ⟨⟩)
      else pure (.yield ⟨⟩)) ⟨⟩ ((entries.filter test).map finding) := by
  have hfindings : (entries.filter test).map finding =
      entries.flatMap fun entry => if test entry = true then [finding entry] else [] := by
    induction entries with
    | nil => rfl
    | cons entry entries ih =>
      rw [List.filter_cons, List.flatMap_cons, ← ih]
      split_ifs <;> rfl
  rw [hfindings]
  exact raises_forIn fun entry _ => raises_if _ _ _

theorem raises_presence (required : List String) (plan : Plan) :
    Raises (presence required plan) ()
      (Rule.missingMetadata plan ++ Rule.missingSections required plan) := by
  have hmetadata : Rule.missingMetadata plan =
      if plan.metadata?.isNone = true then [.missingMetadata] else [] := by
    unfold Rule.missingMetadata
    cases plan.metadata? <;> rfl
  rw [hmetadata]
  unfold presence Rule.missingSections
  apply Raises.guard
  cases plan.sections? with
  | none => exact raises_raise _
  | some sections => exact (raises_forIn_if required _ _).bind_pure ()

theorem raises_placeholders (text : List Char) :
    Raises (placeholders text) () (Rule.placeholders text) := by
  rw [Rule.placeholders, List.filterMap_eq_flatMap_toList]
  refine (raises_forIn fun entry _ => ?_).bind_pure ()
  obtain ⟨token, pattern⟩ := entry
  simp only
  cases pattern.find? text with
  | none => exact raises_pure _
  | some found => exact (raises_raise _).bind_pure _

/-- After the loop over the ids, the declared ones are those that were declared before and those of the
loop. -/
theorem raises_declare (area : String) (ids : List String) (declared : Std.HashSet String) :
    ∃ all : Std.HashSet String, (∀ id, id ∈ all ↔ id ∈ declared ∨ id ∈ ids) ∧
      Raises (forIn ids declared fun id declared =>
        if declared.contains id = true then do
          raise (.repeatedId area id)
          pure (.yield declared)
        else pure (.yield (declared.insert id))) all
        ((Rule.repeats declared ids).map (.repeatedId area)) := by
  induction ids generalizing declared with
  | nil => exact ⟨declared, by simp, raises_pure declared⟩
  | cons id ids ih =>
    rw [List.forIn_cons, Rule.repeats]
    split_ifs with hdeclared
    · obtain ⟨all, hall, hraises⟩ := ih declared
      refine ⟨all, fun other => ?_, ((raises_raise _).bind_pure _).bind hraises⟩
      have hid : other = id → other ∈ declared := by
        rintro rfl
        exact Std.HashSet.contains_iff_mem.1 hdeclared
      rw [hall, List.mem_cons]
      constructor
      · exact fun h => h.imp_right .inr
      · rintro (hbefore | heq | hids)
        · exact .inl hbefore
        · exact .inl (hid heq)
        · exact .inr hids
    · obtain ⟨all, hall, hraises⟩ := ih (declared.insert id)
      refine ⟨all, fun other => ?_, (raises_pure _).bind hraises⟩
      rw [hall, Std.HashSet.mem_insert, beq_iff_eq, List.mem_cons, or_assoc, or_left_comm,
        eq_comm]

theorem raises_taskIds (population : TaskPopulation) :
    Raises (taskIds population) ()
      (Rule.repeatedIds population ++ Rule.unknownDependencies population) := by
  obtain ⟨all, hall, hraises⟩ := raises_declare population.area population.ids ∅
  have hknown : all.contains = (Std.HashSet.ofList population.ids).contains := by
    funext id
    rw [Bool.eq_iff_iff]
    simp [hall]
  refine hraises.bind ?_
  rw [Rule.unknownDependencies, ← hknown]
  refine (raises_forIn fun task _ => ?_).bind_pure ()
  exact (raises_forIn_if task.dependsOn _ _).bind_pure _

theorem raises_completeness (plan : Plan) :
    Raises (completeness plan) ()
      (Rule.placeholders plan.toJson.chars ++ Rule.repeatedIds plan.population
        ++ Rule.unknownDependencies plan.population
        ++ Rule.circularDependencies plan.population) := by
  rw [List.append_assoc _ _ (Rule.unknownDependencies _), List.append_assoc]
  refine (raises_placeholders _).bind ((raises_taskIds _).bind ?_)
  exact (raises_forIn_raise _ _).bind_pure ()

theorem raises_descriptions (population : TaskPopulation) :
    Raises (descriptions population) () (Rule.thinDescriptions population) := by
  refine (raises_forIn fun task _ => ?_).bind_pure ()
  unfold Rule.thinDescription
  cases task.description with
  | none => exact raises_pure _
  | some description =>
    simp only
    split_ifs
    · exact (raises_raise _).bind_pure _
    · exact (raises_raise _).bind_pure _
    · exact raises_pure _

theorem raises_phaseFields (phase : Json) (index : Nat) :
    Raises (phaseFields phase index) () (Rule.missingFields phase index) :=
  (raises_forIn_if Rule.phaseFields _ _).bind_pure ()

/-- A rating is raised where it is given and not of the right kind. -/
theorem Raises.rating {next : Unit → Inspection β} {result : β} {later : List Finding}
    (hnext : Raises (next ()) result later) (rating? : Option Json) (test : Json → Bool)
    (finding : Json → Finding) :
    Raises
      (match rating? with
      | some rating => if (!test rating) = true then raise (finding rating) >>= next else next ()
      | _ => next ()) result
      (((rating?.filter (!test ·)).map finding).toList ++ later) := by
  cases rating? with
  | none => exact hnext
  | some rating =>
    have hfindings : (((some rating).filter (!test ·)).map finding).toList =
        if (!test rating) = true then [finding rating] else [] := by
      cases htest : test rating <;> simp [Option.filter, htest]
    rw [hfindings]
    exact hnext.guard (finding rating)

theorem raises_phaseRatings (key : String) (phase : Json) :
    Raises (phaseRatings key phase) () (Rule.wrongRatings key phase) := by
  rw [Rule.wrongRatings, List.append_assoc]
  refine ((?_ : Raises _ _ _).rating _ Rule.isEffort _).rating _ Rule.isComplexity _
  cases phase.get? "duration" with
  | none => exact raises_pure ()
  | some value => exact raises_raise _

theorem raises_phases (layout : PhaseLayout) :
    Raises (phases layout) () (Rule.phaseFaults layout) := by
  cases layout with
  | array phases =>
    rw [Rule.phaseFaults, ← List.flatMap_def]
    exact (raises_forIn fun entry _ => (raises_phaseFields _ _).bind_pure _).bind_pure ()
  | keyed phases =>
    exact (raises_forIn fun entry _ => (raises_phaseRatings _ _).bind_pure _).bind_pure ()
  | absent => exact raises_pure ()

theorem raises_coverage (content? : Option Json) (pattern : Pattern) (least : Nat)
    (finding : Nat → Finding) :
    Raises (coverage content? pattern least finding) ()
      (match content? with
      | none => []
      | some content =>
        let count := Rule.countIn pattern content
        if count < least then [finding count] else []) := by
  cases content? with
  | none => exact raises_pure ()
  | some content =>
    simp only [coverage]
    split_ifs
    · exact raises_raise _
    · exact raises_pure ()

theorem raises_quality (plan : Plan) :
    Raises (quality plan) ()
      (Rule.thinDescriptions plan.population ++ Rule.phaseFaults plan.phaseLayout
        ++ Rule.vagueCriteria plan ++ Rule.fewEdgeCases plan) := by
  rw [List.append_assoc, List.append_assoc]
  refine (raises_descriptions _).bind ((raises_phases _).bind ?_)
  exact (raises_coverage _ _ _ _).bind (raises_coverage _ _ _ _)

theorem raises_taskWorkorder (id entry : Json) :
    Raises (taskWorkorder id entry) () (Rule.taskWorkorderFaults id entry) := by
  unfold taskWorkorder Rule.taskWorkorderFaults
  split_ifs
  · exact raises_pure ()
  cases Task.ofJson? entry with
  | none => exact raises_pure ()
  | some task =>
    simp only
    cases task.workorderId with
    | none => exact raises_raise _
    | some found =>
      simp only
      cases found.same id with
      | true => exact raises_pure ()
      | false => exact raises_raise _

theorem raises_workorder (plan : Plan) :
    Raises (workorder plan) () (Rule.workorderFaults plan) := by
  unfold workorder Rule.workorderFaults
  cases plan.workorder? with
  | none => exact raises_pure ()
  | some workorder =>
    simp only
    have hfields := raises_forIn_if ["name", "feature_dir"] (!workorder.has ·)
      .missingWorkorderField
    cases workorder.get? "id" with
    | none =>
      rw [List.append_assoc]
      exact (raises_raise _).bind (hfields.bind (raises_pure ()))
    | some id =>
      have htasks : Raises (forIn (Rule.workorderTasks plan workorder) PUnit.unit fun entry _ => do
          taskWorkorder id entry
          pure (.yield ⟨⟩)) ⟨⟩
          ((Rule.workorderTasks plan workorder).flatMap (Rule.taskWorkorderFaults id)) :=
        raises_forIn fun entry _ => (raises_taskWorkorder id entry).bind_pure _
      have hid : Rule.workorderIdFaults (some id) =
          if (!Rule.isWorkorderId id) = true then [.malformedWorkorderId id] else [] := by
        rw [Rule.workorderIdFaults]
        cases Rule.isWorkorderId id <;> rfl
      rw [List.append_assoc, hid]
      exact (hfields.bind (htasks.bind_pure ())).guard _

theorem raises_autonomy (text : List Char) :
    Raises (autonomy text) () (Rule.ambiguousWording text ++ Rule.openQuestions text) :=
  (raises_forIn_raise _ _).bind ((raises_forIn_raise _ _).bind_pure ())

theorem raises_timePolicy (text : List Char) :
    Raises (timePolicy text) () (Rule.timeEstimates text) := by
  unfold timePolicy Rule.timeEstimates
  cases Rule.timeKeywordsIn text with
  | nil => exact raises_pure ()
  | cons keyword keywords => exact raises_raise _

end Inspection

namespace Check

variable (required : List String) (plan : Plan)

theorem raises_inspection (check : Check) :
    (check.inspection required plan).Raises () (check.findings required plan) := by
  cases check with
  | presence => exact Inspection.raises_presence required plan
  | completeness => exact Inspection.raises_completeness plan
  | quality => exact Inspection.raises_quality plan
  | workorder => exact Inspection.raises_workorder plan
  | autonomy => exact Inspection.raises_autonomy plan.toJson.chars
  | timePolicy => exact Inspection.raises_timePolicy plan.toJson.chars

/-- A check leaves the issues that it is given as they are, and puts those of its findings behind. -/
theorem run_eq (issues : List Issue) (check : Check) :
    run required plan issues check = issues ++ (check.findings required plan).map Finding.toIssue :=
  congrArg Prod.snd (raises_inspection required plan check issues)

theorem mem_run_iff {required : List String} {plan : Plan} {check : Check} {issue : Issue} :
    issue ∈ run required plan [] check ↔
      ∃ finding ∈ check.findings required plan, finding.toIssue = issue := by
  rw [run_eq, List.nil_append, List.mem_map]

end Check

end PlanAudit
