import PlanAudit.Proofs.Json.SameValue
import PlanAudit.Proofs.RaisedIssues
import PlanAudit.Proofs.WorkorderId

/-! What the workorder check reports, told by what the plan says and what it leaves out. -/
namespace PlanAudit

structure Plan.DeclaresWorkorder (plan : Plan) (system workorder : Json.Members) : Prop where
  inSection : plan.section? taskSystemKey = some (.object system)
  inSystem : system.get? "workorder" = some (.object workorder)

namespace Workorder

/-- The tasks that have to name the workorder. Its own list counts if it is an array, even an empty
one, or else the list beside it. -/
inductive EffectiveTasks (system workorder : Json.Members) : List Json → Prop where
  | own {tasks : List Json} : workorder.get? "tasks" = some (.array tasks) →
    EffectiveTasks system workorder tasks
  | beside {tasks : List Json} : (∀ own, workorder.get? "tasks" ≠ some (.array own)) →
    system.get? "tasks" = some (.array tasks) → EffectiveTasks system workorder tasks
  | neither : (∀ own, workorder.get? "tasks" ≠ some (.array own)) →
    (∀ tasks, system.get? "tasks" ≠ some (.array tasks)) → EffectiveTasks system workorder []

theorem EffectiveTasks.unique {system workorder : Json.Members} {tasks others : List Json}
    (h : EffectiveTasks system workorder tasks) (hother : EffectiveTasks system workorder others) :
    tasks = others := by
  cases h with
  | own hown =>
    cases hother with
    | own hother => simpa [hown] using hother
    | beside hnone _ => exact absurd hown (hnone _)
    | neither hnone _ => exact absurd hown (hnone _)
  | beside hnone hlist =>
    cases hother with
    | own hown => exact absurd hown (hnone _)
    | beside _ hother => simpa [hlist] using hother
    | neither _ hempty => exact absurd hlist (hempty _)
  | neither hnone hempty =>
    cases hother with
    | own hown => exact absurd hown (hnone _)
    | beside _ hlist => exact absurd hlist (hempty _)
    | neither _ _ => rfl

inductive IdIssues : Option Json → List Issue → Prop where
  | missing : IdIssues none [⟨.critical, taskSystemKey, "Workorder missing id",
      "Add an id of the form WO-\x7bFEATURE-NAME\x7d-001 to the workorder"⟩]
  | malformed {id : Json} : (∀ s, id = .string s → ¬ IsWorkorderId s) →
    IdIssues (some id) [⟨.major, taskSystemKey, "Invalid workorder ID format: " ++ id.plain,
      "Use the form WO-\x7bFEATURE-NAME\x7d-001 with an uppercase feature name"⟩]
  | wellFormed {s : String} : IsWorkorderId s → IdIssues (some (.string s)) []

inductive FieldIssues (workorder : Json.Members) (field : String) : List Issue → Prop where
  | missing : workorder.get? field = none →
    FieldIssues workorder field [⟨.major, taskSystemKey, "Workorder missing " ++ field,
      "Add '" ++ field ++ "' to the workorder"⟩]
  | present {value : Json} : workorder.get? field = some value → FieldIssues workorder field []

inductive TaskName (members : Json.Members) : String → Prop where
  | id {s : String} : members.get? "id" = some (.string s) → TaskName members s
  | unnamed : (∀ s, members.get? "id" ≠ some (.string s)) → TaskName members "(unnamed task)"

/-- The issues about an entry of the task list, which should name the workorder by its id. Entries that
are no objects are not asked. -/
inductive EntryIssues (id : Json) : Json → List Issue → Prop where
  | noObject {entry : Json} : (∀ members, entry ≠ .object members) → EntryIssues id entry []
  | missing {members : Json.Members} {name : String} : TaskName members name →
    members.get? "workorder_id" = none →
    EntryIssues id (.object members) [⟨.major, taskSystemKey, "Task missing workorder_id: " ++ name,
      "Set workorder_id to " ++ id.plain ++ " on " ++ name⟩]
  | wrong {members : Json.Members} {name : String} {found : Json} : TaskName members name →
    members.get? "workorder_id" = some found → found.withoutZeroSigns ≠ id.withoutZeroSigns →
    EntryIssues id (.object members) [⟨.critical, taskSystemKey,
      "Workorder ID mismatch: " ++ name ++ " has " ++ found.plain ++ ", expected " ++ id.plain,
      "Change workorder_id on " ++ name ++ " to " ++ id.plain⟩]
  | right {members : Json.Members} {found : Json} :
    members.get? "workorder_id" = some found → found.withoutZeroSigns = id.withoutZeroSigns →
    EntryIssues id (.object members) []

def Gathered {α : Type} (issuesOf : α → List Issue → Prop) (inputs : List α)
    (issues : List Issue) : Prop :=
  ∃ parts, List.Forall₂ issuesOf inputs parts ∧ issues = parts.flatten

/-- The issues about the tasks. Without an id to compare with there are none. -/
inductive TaskIssues (system workorder : Json.Members) : Option Json → List Issue → Prop where
  | noId : TaskIssues system workorder none []
  | id {id : Json} {tasks : List Json} {issues : List Issue} :
    EffectiveTasks system workorder tasks → Gathered (EntryIssues id) tasks issues →
    TaskIssues system workorder (some id) issues

private theorem gathered_flatMap {α : Type} {issuesOf : α → List Issue → Prop}
    {f : α → List Finding}
    (h : ∀ a, issuesOf a ((f a).map Finding.toIssue)) (inputs : List α) :
    Gathered issuesOf inputs ((inputs.flatMap f).map Finding.toIssue) := by
  refine ⟨inputs.map fun a => (f a).map Finding.toIssue, ?_, ?_⟩
  · rw [List.forall₂_map_right_iff, List.forall₂_same]
    exact fun a _ => h a
  · rw [List.map_flatMap, List.flatMap_def]

theorem idIssues_workorderIdFaults (id : Option Json) :
    IdIssues id ((Rule.workorderIdFaults id).map Finding.toIssue) := by
  cases id with
  | none => exact .missing
  | some id =>
    have hform : Rule.isWorkorderId id = true ↔ ∃ s, id = .string s ∧ IsWorkorderId s := by
      cases id <;> simp [Rule.isWorkorderId, Pattern.occursIn_iff_matches,
        Vocabulary.matches_workorderId_iff]
    rw [Rule.workorderIdFaults]
    split
    case isTrue h =>
      obtain ⟨s, rfl, hs⟩ := hform.1 h
      exact .wellFormed hs
    case isFalse h => exact .malformed fun s heq hs => h (hform.2 ⟨s, heq, hs⟩)

theorem fieldIssues_missingWorkorderFields (workorder : Json.Members) :
    Gathered (FieldIssues workorder) ["name", "feature_dir"]
      ((Rule.missingWorkorderFields workorder).map Finding.toIssue) := by
  have hfaults : Rule.missingWorkorderFields workorder = ["name", "feature_dir"].flatMap fun field =>
      if workorder.has field then [] else [.missingWorkorderField field] := by
    unfold Rule.missingWorkorderFields
    cases hname : workorder.has "name" <;> cases hdir : workorder.has "feature_dir" <;>
      simp [hname, hdir]
  rw [hfaults]
  refine gathered_flatMap (fun field => ?_) _
  unfold Json.Members.has
  cases hfield : workorder.get? field with
  | none => exact .missing hfield
  | some value => exact .present hfield

theorem taskName_label (members : Json.Members) :
    TaskName members (((members.get? "id").bind Json.string?).getD "(unnamed task)") := by
  cases hid : members.get? "id" with
  | none => exact .unnamed (by simp [hid])
  | some value =>
    cases value with
    | string s => exact .id hid
    | _ => exact .unnamed (by simp [hid])

theorem entryIssues_taskWorkorderFaults (id entry : Json) :
    EntryIssues id entry ((Rule.taskWorkorderFaults id entry).map Finding.toIssue) := by
  cases entry with
  | object members =>
    simp only [Rule.taskWorkorderFaults, Json.isObject, Task.ofJson?, Json.get?]
    have hname := taskName_label members
    cases hfound : Json.Members.get? members "workorder_id" with
    | none => exact .missing hname hfound
    | some found =>
      by_cases hsame : found.same id = true
      · simp only [hsame]
        exact .right hfound ((Json.same_iff found id).1 hsame)
      · simp only [hsame]
        exact .wrong hname hfound fun heq => hsame ((Json.same_iff found id).2 heq)
  | _ => exact .noObject (by simp)

theorem effectiveTasks_workorderTasks {plan : Plan} {system workorder : Json.Members}
    (h : plan.DeclaresWorkorder system workorder) :
    EffectiveTasks system workorder (Rule.workorderTasks plan workorder) := by
  have hflat : plan.flatTasks? = (system.get? "tasks").bind Json.array? := by
    rw [Plan.flatTasks?, h.inSection]
    rfl
  unfold Rule.workorderTasks
  rw [hflat]
  cases hown : (workorder.get? "tasks").bind Json.array? with
  | some tasks => exact .own (Json.bind_array?_eq_some_iff.1 hown)
  | none =>
    have hnone := Json.bind_array?_eq_none_iff.1 hown
    cases hbeside : (system.get? "tasks").bind Json.array? with
    | some tasks => exact .beside hnone (Json.bind_array?_eq_some_iff.1 hbeside)
    | none => exact .neither hnone (Json.bind_array?_eq_none_iff.1 hbeside)

theorem taskIssues_faults {plan : Plan} {system workorder : Json.Members}
    (h : plan.DeclaresWorkorder system workorder) (id : Option Json) :
    TaskIssues system workorder id (List.map Finding.toIssue (match id with
      | none => []
      | some id => (Rule.workorderTasks plan workorder).flatMap (Rule.taskWorkorderFaults id))) := by
  cases id with
  | none => exact .noId
  | some id =>
    exact .id (effectiveTasks_workorderTasks h)
      (gathered_flatMap (entryIssues_taskWorkorderFaults id) _)

end Workorder

theorem Plan.workorder?_eq_some_iff (plan : Plan) (workorder : Json.Members) :
    plan.workorder? = some workorder ↔ ∃ system, plan.DeclaresWorkorder system workorder := by
  rw [workorder?, Option.bind_eq_some_iff]
  simp only [Json.bind_object?_eq_some_iff]
  constructor
  · rintro ⟨system, hsection, hget⟩
    cases system with
    | object system => exact ⟨system, hsection, hget⟩
    | _ => cases hget
  · rintro ⟨system, hsection, hget⟩
    exact ⟨.object system, hsection, hget⟩

/-- The issues stand in a fixed order: those about the id, about missing fields, and about tasks in
their order. -/
theorem Check.workorder_reports_exactly (required : List String) (plan : Plan) :
    (∀ system workorder, plan.DeclaresWorkorder system workorder →
      ∃ idIssues fieldIssues taskIssues,
        run required plan [] .workorder = idIssues ++ fieldIssues ++ taskIssues ∧
        Workorder.IdIssues (workorder.get? "id") idIssues ∧
        Workorder.Gathered (Workorder.FieldIssues workorder) ["name", "feature_dir"] fieldIssues ∧
        Workorder.TaskIssues system workorder (workorder.get? "id") taskIssues) ∧
    ((¬ ∃ system workorder, plan.DeclaresWorkorder system workorder) →
      run required plan [] .workorder = []) := by
  have hrun : run required plan [] .workorder =
      (Rule.workorderFaults plan).map Finding.toIssue := run_eq required plan [] .workorder
  rw [hrun]
  constructor
  · intro system workorder h
    have hworkorder := (plan.workorder?_eq_some_iff workorder).2 ⟨system, h⟩
    refine ⟨_, _, _, ?_, Workorder.idIssues_workorderIdFaults _,
      Workorder.fieldIssues_missingWorkorderFields workorder, Workorder.taskIssues_faults h _⟩
    rw [Rule.workorderFaults, hworkorder]
    exact List.map_append.trans (congrArg (· ++ _) List.map_append)
  · intro hnone
    have hworkorder : plan.workorder? = none := by
      rw [Option.eq_none_iff_forall_ne_some]
      intro workorder h
      obtain ⟨system, hdeclares⟩ := (plan.workorder?_eq_some_iff workorder).1 h
      exact hnone ⟨system, workorder, hdeclares⟩
    rw [Rule.workorderFaults, hworkorder]
    rfl

/-- A null names no workorder, and a text in the list of tasks is not asked. -/
theorem Check.workorder_with_null_reported :
    let workorder : Json.Members := [("id", .integer 1), ("name", .null),
      ("tasks", .array [.string "A", .object [], .object [("workorder_id", .null)],
        .object [("workorder_id", .integer 1)]])]
    let system : Json.Members := [("workorder", .object workorder)]
    let plan : Plan := ⟨[(sectionsKey, .object [(taskSystemKey, .object system)])]⟩
    plan.DeclaresWorkorder system workorder ∧
      (run [] plan [] .workorder).map Issue.severity = [.major, .major, .major, .critical] ∧
      ∃ idIssues fieldIssues taskIssues,
        run [] plan [] .workorder = idIssues ++ fieldIssues ++ taskIssues ∧
        Workorder.IdIssues (workorder.get? "id") idIssues ∧
        Workorder.Gathered (Workorder.FieldIssues workorder) ["name", "feature_dir"] fieldIssues ∧
        Workorder.TaskIssues system workorder (workorder.get? "id") taskIssues := by
  intro workorder system plan
  have hdeclares : plan.DeclaresWorkorder system workorder := ⟨rfl, rfl⟩
  exact ⟨hdeclares, by decide, (workorder_reports_exactly [] plan).1 system workorder hdeclares⟩

end PlanAudit
