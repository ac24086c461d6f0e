import Mathlib.Algebra.GroupWithZero.Nat
import Mathlib.Algebra.Order.BigOperators.Group.List
import PlanAudit.Proofs.RuleChecks
import PlanAudit.Proofs.SilentRules

/-! The tasks of a plan can be executed one after the other exactly if the plan passes the checks on
ids and dependencies. -/
namespace PlanAudit

/-- Whatever a task depends on is the id of a task before it. -/
def InOrder (order : List Task) : Prop :=
  ∀ before task after, order = before ++ task :: after →
    ∀ id ∈ task.dependsOn, ∃ earlier ∈ before, earlier.id = some id

def Executable (tasks : List Task) : Prop :=
  (tasks.filterMap Task.id).Nodup ∧ ∃ order, order.Perm tasks ∧ InOrder order

namespace DependencyGraph

/-- Where every path ends, an id has a height: one more than the heights of its dependencies add up
to. -/
theorem exists_height (g : DependencyGraph) (hgrounded : ∀ id, g.Grounded id) :
    ∃ height : String → Nat, ∀ id, height id = ((g.dependencies id).map height).sum + 1 := by
  have hwf : WellFounded fun target id => target ∈ g.dependencies id := ⟨hgrounded⟩
  refine ⟨hwf.fix fun id height =>
    ((g.dependencies id).attach.map fun target => height target.1 target.2).sum + 1, fun id => ?_⟩
  rw [hwf.fix_eq]
  simp

end DependencyGraph

open DependencyGraph

variable {tasks : List Task}

/-- Where the ids differ, an id depends on what its one task depends on. -/
theorem dependencies_eq_dependsOn (hids : (tasks.filterMap Task.id).Nodup) {task : Task}
    (htask : task ∈ tasks) {id : String} (hid : task.id = some id) :
    (ofTasks tasks).dependencies id = task.dependsOn := by
  obtain ⟨before, after, rfl⟩ := List.append_of_mem htask
  rw [List.filterMap_append, List.filterMap_cons_some hid, List.nodup_middle, List.nodup_cons,
    ← List.filterMap_append] at hids
  have hother : (before ++ after).filter (·.id = some id) = [] := by
    rw [List.filter_eq_nil_iff]
    intro other hmem hsame
    exact hids.1 (List.mem_filterMap.2 ⟨other, hmem, of_decide_eq_true hsame⟩)
  obtain ⟨hbefore, hafter⟩ := List.append_eq_nil_iff.1 ((List.filter_append ..).symm.trans hother)
  rw [dependencies_ofTasks, List.filter_append, hbefore, List.filter_cons_of_pos (by simp [hid]),
    hafter]
  simp

/-- Tasks in the order of a weight are in order if each weighs more than what it depends on. -/
theorem inOrder_mergeSort (weight : Task → Nat)
    (h : ∀ task ∈ tasks, ∀ id ∈ task.dependsOn,
      ∃ earlier ∈ tasks, earlier.id = some id ∧ weight earlier < weight task) :
    InOrder (tasks.mergeSort fun task other => weight task ≤ weight other) := by
  intro before task after horder id hid
  have hsorted : (before ++ task :: after).Pairwise
      fun task other => decide (weight task ≤ weight other) = true := by
    rw [← horder]
    apply List.pairwise_mergeSort
    · simp only [decide_eq_true_eq]
      omega
    · simp only [Bool.or_eq_true, decide_eq_true_eq]
      omega
  have hmem : ∀ other, other ∈ tasks ↔ other ∈ before ++ task :: after := by
    intro other
    rw [← horder, List.mem_mergeSort]
  obtain ⟨earlier, hearlier, hdeclares, hless⟩ := h task ((hmem task).2 (by simp)) id hid
  refine ⟨earlier, ?_, hdeclares⟩
  rw [List.pairwise_append, List.pairwise_cons] at hsorted
  rcases List.mem_append.1 ((hmem earlier).1 hearlier) with hbefore | hrest
  · exact hbefore
  rcases List.mem_cons.1 hrest with rfl | hafter
  · omega
  · have hle := of_decide_eq_true (hsorted.2.1.1 earlier hafter)
    omega

theorem exists_order (hids : (tasks.filterMap Task.id).Nodup)
    (hdeclared : ∀ task ∈ tasks, ∀ id ∈ task.dependsOn, id ∈ tasks.filterMap Task.id)
    (hacyclic : (ofTasks tasks).Acyclic) : ∃ order, order.Perm tasks ∧ InOrder order := by
  have hgrounded := (wellFormed_ofTasks tasks).acyclic_iff_grounded.1 hacyclic
  obtain ⟨height, hheight⟩ := exists_height _ hgrounded
  -- a task without an id has no height, so tasks are weighed by what they depend on
  refine ⟨_, List.mergeSort_perm tasks _,
    inOrder_mergeSort (fun task => (task.dependsOn.map height).sum) fun task htask id hid => ?_⟩
  obtain ⟨earlier, hearlier, hdeclares⟩ := List.mem_filterMap.1 (hdeclared task htask id hid)
  have hown : height id = (earlier.dependsOn.map height).sum + 1 := by
    rw [hheight, dependencies_eq_dependsOn hids hearlier hdeclares]
  have hle : height id ≤ (task.dependsOn.map height).sum :=
    List.le_sum_of_mem (List.mem_map_of_mem hid)
  exact ⟨earlier, hearlier, hdeclares, by omega⟩

/-- In an order every id is grounded: what its task depends on belongs to tasks before it. -/
theorem grounded_of_inOrder (hids : (tasks.filterMap Task.id).Nodup) {order : List Task}
    (hmem : ∀ task, task ∈ order ↔ task ∈ tasks) (horder : InOrder order) (front back : List Task)
    (hsplit : order = front ++ back) {task : Task} (htask : task ∈ front) {id : String}
    (hid : task.id = some id) : (ofTasks tasks).Grounded id := by
  induction front using List.reverseRecOn generalizing back task id with
  | nil => cases htask
  | append_singleton front last ih =>
    rw [List.append_assoc, List.singleton_append] at hsplit
    rcases List.mem_append.1 htask with hfront | hlast
    · exact ih (last :: back) hsplit hfront hid
    · rw [List.mem_singleton.1 hlast] at hid
      have hdeclared : last ∈ tasks := (hmem last).1 (by simp [hsplit])
      rw [grounded_iff, dependencies_eq_dependsOn hids hdeclared hid]
      intro target htarget
      obtain ⟨earlier, hearlier, hdeclares⟩ := horder front last back hsplit target htarget
      exact ih (last :: back) hsplit hearlier hdeclares

theorem acyclic_of_inOrder (hids : (tasks.filterMap Task.id).Nodup) {order : List Task}
    (hperm : order.Perm tasks) (horder : InOrder order) : (ofTasks tasks).Acyclic := by
  rw [(wellFormed_ofTasks tasks).acyclic_iff_grounded]
  intro id
  refine (grounded_iff _ id).2 fun target htarget => ?_
  obtain ⟨task, htask, hid, _⟩ := mem_dependencies_ofTasks_iff.1 htarget
  have hgrounded := grounded_of_inOrder hids (fun _ => hperm.mem_iff) horder order []
    (List.append_nil order).symm (hperm.mem_iff.2 htask) hid
  exact (grounded_iff _ id).1 hgrounded target htarget

theorem declared_of_inOrder {order : List Task} (hperm : order.Perm tasks)
    (horder : InOrder order) {task : Task} (htask : task ∈ tasks) {id : String}
    (hid : id ∈ task.dependsOn) : id ∈ tasks.filterMap Task.id := by
  obtain ⟨before, after, hsplit⟩ := List.append_of_mem (hperm.mem_iff.2 htask)
  obtain ⟨earlier, hearlier, hdeclares⟩ := horder before task after hsplit id hid
  refine List.mem_filterMap.2 ⟨earlier, hperm.mem_iff.1 ?_, hdeclares⟩
  rw [hsplit]
  exact List.mem_append_left _ hearlier

/-- Tasks can be executed exactly if their ids differ, each dependency is the id of a task and there
is no cycle. -/
theorem executable_iff :
    Executable tasks ↔ (tasks.filterMap Task.id).Nodup ∧
      (∀ task ∈ tasks, ∀ id ∈ task.dependsOn, id ∈ tasks.filterMap Task.id) ∧
      (ofTasks tasks).Acyclic := by
  constructor
  · rintro ⟨hids, order, hperm, horder⟩
    exact ⟨hids, fun task htask id hid => declared_of_inOrder hperm horder htask hid,
      acyclic_of_inOrder hids hperm horder⟩
  · rintro ⟨hids, hdeclared, hacyclic⟩
    exact ⟨hids, exists_order hids hdeclared hacyclic⟩

/-- A plan passes the three checks on ids and dependencies exactly if its tasks can be executed. -/
theorem Validator.dependency_checks_passed_iff_executable (validator : Validator) (plan : Plan) :
    ((validator.validate plan).checklist.get? "task_ids_unique" = some true ∧
      (validator.validate plan).checklist.get? "dependencies_valid" = some true ∧
      (validator.validate plan).checklist.get? "no_circular_dependencies" = some true) ↔
    Executable plan.population.tasks := by
  have hunique : validator.rule? plan "task_ids_unique" =
      some (_, Rule.repeatedIds plan.population) := rfl
  have hknown : validator.rule? plan "dependencies_valid" =
      some (_, Rule.unknownDependencies plan.population) := rfl
  have hcircular : validator.rule? plan "no_circular_dependencies" =
      some (_, Rule.circularDependencies plan.population) := rfl
  rw [get?_checklist_eq_true_iff validator plan (mem_of_rule? hunique),
    get?_checklist_eq_true_iff validator plan (mem_of_rule? hknown),
    get?_checklist_eq_true_iff validator plan (mem_of_rule? hcircular), Rule.repeatedIds_eq_nil_iff,
    Rule.unknownDependencies_eq_nil_iff, Rule.circularDependencies_eq_nil_iff, executable_iff]
  rfl

end PlanAudit
