import Mathlib.Algebra.BigOperators.Group.Finset.Basic
import Mathlib.Algebra.GroupWithZero.Nat
import Mathlib.Algebra.Order.BigOperators.Group.Finset
import PlanAudit.Proofs.Dependency.Path

/-! The search comes to its end: every step uses up one of the steps that the graph has room for. -/
namespace PlanAudit

namespace DependencyGraph

variable {g : DependencyGraph}

def allIds (g : DependencyGraph) : Finset String :=
  (g.nodes.toList ++ g.targets).toFinset

/-- The steps that an id takes: one for each of its dependencies, and one to leave it. -/
def cost (g : DependencyGraph) (id : String) : Nat :=
  (g.dependencies id).length + 1

theorem mem_allIds_of_node {id : String} (h : id ∈ g.nodes) : id ∈ g.allIds :=
  List.mem_toFinset.2 (List.mem_append_left _ (Array.mem_toList_iff.2 h))

theorem WellFormed.mem_allIds_of_dependency (hg : g.WellFormed) {id target : String}
    (h : target ∈ g.dependencies id) : target ∈ g.allIds := by
  refine List.mem_toFinset.2 (List.mem_append_right _ (List.mem_flatMap.2 ⟨id, ?_, h⟩))
  exact Array.mem_toList_iff.2 (hg.declared h)

theorem idCount_eq_card (g : DependencyGraph) : g.idCount = g.allIds.card := by
  let set := Std.HashSet.ofList (g.nodes.toList ++ g.targets)
  have hnodup : set.toList.Nodup := by
    have hdistinct := Std.HashSet.distinct_toList (m := set)
    exact hdistinct.imp fun h => beq_eq_false_iff_ne.1 h
  have hids : set.toList.toFinset = g.allIds := by
    ext id
    rw [List.mem_toFinset, Std.HashSet.mem_toList, allIds, List.mem_toFinset]
    simp [set]
  calc g.idCount
      = set.toList.length := Std.HashSet.length_toList.symm
    _ = set.toList.toFinset.card := (List.toFinset_card_of_nodup hnodup).symm
    _ = g.allIds.card := by rw [hids]

/-- The limit of the search has room for all steps of all ids. -/
theorem WellFormed.sum_cost (hg : g.WellFormed) : ∑ id ∈ g.allIds, g.cost id = g.stepLimit := by
  have hsub : g.nodes.toList.toFinset ⊆ g.allIds := by
    intro id hid
    exact mem_allIds_of_node (Array.mem_toList_iff.1 (List.mem_toFinset.1 hid))
  have hrest : ∀ id ∈ g.allIds, id ∉ g.nodes.toList.toFinset → (g.dependencies id).length = 0 := by
    intro id _ hid
    rw [List.length_eq_zero_iff, List.eq_nil_iff_forall_not_mem]
    intro target htarget
    exact hid (List.mem_toFinset.2 (Array.mem_toList_iff.2 (hg.declared htarget)))
  calc ∑ id ∈ g.allIds, g.cost id
      = ∑ id ∈ g.allIds, (g.dependencies id).length + g.allIds.card := by
        simp [cost, Finset.sum_add_distrib]
    _ = ∑ id ∈ g.nodes.toList.toFinset, (g.dependencies id).length + g.allIds.card := by
        rw [Finset.sum_subset hsub hrest]
    _ = g.targets.length + g.idCount := by
        rw [List.sum_toFinset _ hg.nodes_nodup, targets, List.length_flatMap, idCount_eq_card]
    _ = g.stepLimit := Nat.add_comm _ _

end DependencyGraph

namespace Search

variable {g : DependencyGraph} {s t : Search}

def unvisitedCost (g : DependencyGraph) (visited : Std.HashSet String) : Nat :=
  ∑ id ∈ g.allIds with id ∉ visited, g.cost id

/-- The steps that a search can still take: those of the frames on the stack, and those of the ids
that it has not visited. -/
def remaining (g : DependencyGraph) (s : Search) : Nat :=
  (s.stack.map fun frame => frame.pending.length + 1).sum + unvisitedCost g s.visited

theorem unvisitedCost_insert {visited : Std.HashSet String} {id : String} (hid : id ∈ g.allIds)
    (hnew : id ∉ visited) :
    unvisitedCost g visited = g.cost id + unvisitedCost g (visited.insert id) := by
  have hsplit : ({other ∈ g.allIds | other ∉ visited} : Finset String) =
      insert id ({other ∈ g.allIds | other ∉ visited.insert id}) := by
    ext other
    by_cases heq : other = id
    · subst heq
      simpa using ⟨hid, hnew⟩
    · simp [heq, Ne.symm heq]
  rw [unvisitedCost, hsplit, Finset.sum_insert (by simp), unvisitedCost]

/-- Going down to a new id only moves its steps to the stack. -/
theorem remaining_enter {id : String} (hid : id ∈ g.allIds) (hnew : id ∉ s.visited) :
    remaining g (s.enter g id) = remaining g s := by
  rw [remaining, remaining, unvisitedCost_insert hid hnew]
  simp only [enter, List.map_cons, List.sum_cons, DependencyGraph.cost]
  omega

theorem Valid.remaining_step (hg : g.WellFormed) (h : Valid g s) (hstep : Step g s t) :
    remaining g t + 1 ≤ remaining g s := by
  cases hstep with
  | leave =>
    simp only [remaining, List.map_cons, List.sum_cons, List.length_nil]
    omega
  | report hpath =>
    simp only [remaining, List.map_cons, List.sum_cons, List.map_nil, List.sum_nil]
    omega
  | pass hpath hvisited =>
    simp only [remaining, List.map_cons, List.sum_cons, List.length_cons]
    omega
  | @descend visited onPath id next pending below found hpath hvisited =>
    have hnext : next ∈ g.dependencies id :=
      (h.pending_suffix _ List.mem_cons_self).subset List.mem_cons_self
    rw [remaining_enter (hg.mem_allIds_of_dependency hnext) hvisited]
    simp only [remaining, List.map_cons, List.sum_cons, List.length_cons]
    omega

/-- A run that has room for the remaining steps empties the stack. -/
theorem Valid.run_stack_eq_nil (hg : g.WellFormed) (h : Valid g s) {limit : Nat}
    (hlimit : remaining g s ≤ limit) : (run g limit s).stack = [] := by
  induction limit generalizing s with
  | zero =>
    by_contra hstack
    have hdrop := h.remaining_step hg (step_spec g hstack)
    omega
  | succ limit ih =>
    rw [run]
    split_ifs with hempty
    · exact List.isEmpty_iff.1 hempty
    · have hstep := step_spec (s := s) g fun hnil => hempty (by rw [hnil]; rfl)
      have hdrop := h.remaining_step hg hstep
      exact ih (h.step hstep) (by omega)

theorem remaining_le_stepLimit (hg : g.WellFormed) (hstack : s.stack = []) :
    remaining g s ≤ g.stepLimit := by
  rw [remaining, hstack, List.map_nil, List.sum_nil, Nat.zero_add, ← hg.sum_cost]
  exact Finset.sum_le_sum_of_subset (Finset.filter_subset _ _)

end Search

end PlanAudit
