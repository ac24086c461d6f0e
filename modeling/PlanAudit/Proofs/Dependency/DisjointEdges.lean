import PlanAudit.Proofs.Dependency.ReportedEdges

/-! No two reported edges have an end in common. An edge that is reported ends at ids on the path,
and all of these have been left from then on. -/
namespace PlanAudit

/-- The ends of an edge. They are the same if a task depends on itself. -/
def BackEdge.ends (edge : BackEdge) : List String :=
  [edge.source, edge.target]

namespace Search

variable {g : DependencyGraph} {s t : Search}

/-- The ends of all edges reported so far have been left, and no two edges share one. -/
structure EndsLeft (g : DependencyGraph) (s : Search) : Prop where
  valid : Valid g s
  left : ∀ edge ∈ s.found.toList, ∀ id ∈ edge.ends, s.Left id
  disjoint : s.found.toList.Pairwise fun edge other => edge.ends.Disjoint other.ends

theorem endsLeft_start (g : DependencyGraph) : EndsLeft g start where
  valid := valid_start g
  left := by simp [start]
  disjoint := by simp [start]

/-- What has been left stays so, so only a new report needs to be looked at. -/
theorem EndsLeft.of_found_eq (h : EndsLeft g s) (hvalid : Valid g t) (hcontinues : Continues s t)
    (hfound : t.found = s.found) : EndsLeft g t := by
  constructor
  · exact hvalid
  · rw [hfound]
    intro edge hedge id hid
    exact hcontinues.left (h.left edge hedge id hid)
  · rw [hfound]
    exact h.disjoint

theorem EndsLeft.step (h : EndsLeft g s) (hstep : Step g s t) : EndsLeft g t := by
  have hvalid := h.valid.step hstep
  have hcontinues := h.valid.continues_step hstep
  cases hstep with
  | leave => exact h.of_found_eq hvalid hcontinues rfl
  | @report visited onPath id next pending below found hpath =>
    have hends : ∀ other ∈ (BackEdge.mk id next).ends, other ∈ id :: below.map Frame.id := by
      intro other hother
      rcases List.mem_cons.1 hother with rfl | hother
      · exact List.mem_cons_self
      · rw [List.mem_singleton.1 hother]
        exact h.valid.onPath_iff.1 hpath
    constructor
    · exact hvalid
    · intro edge hedge other hother
      rw [Array.toList_push, List.mem_append, List.mem_singleton] at hedge
      rcases hedge with hedge | rfl
      · exact hcontinues.left (h.left edge hedge other hother)
      · exact ⟨h.valid.visited_of_path (hends other hother), List.not_mem_nil⟩
    · rw [Array.toList_push, List.pairwise_append]
      refine ⟨h.disjoint, List.pairwise_singleton _ _, ?_⟩
      intro edge hedge new hnew other hother hshared
      -- an end of an earlier edge has been left, and those of the new one lie on the path
      rw [List.mem_singleton.1 hnew] at hshared
      exact (h.left edge hedge other hother).2 (hends other hshared)
  | pass => exact h.of_found_eq hvalid hcontinues rfl
  | descend => exact h.of_found_eq hvalid hcontinues rfl

theorem EndsLeft.explore (h : EndsLeft g s) (hstack : s.stack = []) (limit : Nat)
    (root : String) : EndsLeft g (s.explore g limit root) := by
  by_cases hvisited : root ∈ s.visited
  · rw [explore_of_mem hvisited]
    exact h
  · rw [explore_of_notMem hvisited]
    have hentered : Valid g (s.enter g root) := h.valid.enter hvisited (by simp [hstack])
    exact run_induction EndsLeft.step
      (h.of_found_eq hentered (continues_enter hvisited) rfl) limit

theorem EndsLeft.explore_all (hg : g.WellFormed) (roots : List String)
    (hroots : ∀ root ∈ roots, root ∈ g.nodes) (h : EndsLeft g s) (hsettling : Settling g s)
    (hstack : s.stack = []) : EndsLeft g (roots.foldl (Search.explore g g.stepLimit) s) := by
  induction roots generalizing s with
  | nil => exact h
  | cons root roots ih =>
    obtain ⟨hroot, hrest⟩ := List.forall_mem_cons.1 hroots
    obtain ⟨hsettled, hempty, _⟩ := hsettling.explore hg hstack hroot
    exact ih hrest (h.explore hstack _ root) hsettled hempty

end Search

namespace DependencyGraph

variable {g : DependencyGraph}

theorem WellFormed.backEdges_disjoint (hg : g.WellFormed) :
    g.backEdges.Pairwise fun edge other => edge.ends.Disjoint other.ends := by
  have h := (Search.endsLeft_start g).explore_all hg g.nodes.toList
    (fun _ hroot => Array.mem_toList_iff.1 hroot) (Search.settling_start g) rfl
  rw [backEdges_eq]
  exact h.disjoint

theorem WellFormed.sources_nodup (hg : g.WellFormed) :
    (g.backEdges.map BackEdge.source).Nodup := by
  rw [List.Nodup, List.pairwise_map]
  refine hg.backEdges_disjoint.imp fun {edge other} hdisjoint heq => ?_
  refine hdisjoint (a := edge.source) List.mem_cons_self ?_
  rw [heq]
  exact List.mem_cons_self

/-- Every declared id is the source of at most one reported edge. -/
theorem WellFormed.length_backEdges_le (hg : g.WellFormed) :
    g.backEdges.length ≤ g.nodes.size := by
  have hsubset : g.backEdges.map BackEdge.source ⊆ g.nodes.toList := by
    intro id hid
    obtain ⟨edge, hedge, rfl⟩ := List.mem_map.1 hid
    have hstep := (hg.closing_of_mem_backEdges hedge).1
    exact Array.mem_toList_iff.2 (hg.declared hstep)
  have hlength := (List.subperm_of_subset hg.sources_nodup hsubset).length_le
  rwa [List.length_map, Array.length_toList] at hlength

theorem size_nodes_ofTasks (tasks : List Task) :
    (ofTasks tasks).nodes.size = (tasks.filterMap Task.id).toFinset.card := by
  have hids : (ofTasks tasks).nodes.toList.toFinset = (tasks.filterMap Task.id).toFinset := by
    ext id
    rw [List.mem_toFinset, List.mem_toFinset, Array.mem_toList_iff, mem_nodes_iff_mem_ids]
  rw [← hids, List.toFinset_card_of_nodup (wellFormed_ofTasks tasks).nodes_nodup,
    Array.length_toList]

end DependencyGraph

open DependencyGraph

/-- No id is an end of two reported edges, and none is reported twice. So there are at most as many
issues about circular dependencies as there are different declared ids. -/
theorem reported_edges_disjoint (tasks : List Task) :
    ((ofTasks tasks).backEdges.Pairwise fun edge other => edge.ends.Disjoint other.ends) ∧
    (ofTasks tasks).backEdges.Nodup ∧
    (∀ area, ((Rule.circularDependencies ⟨area, tasks⟩).map Finding.toIssue).length ≤
      (tasks.filterMap Task.id).toFinset.card) ∧
    ∀ (validator : Validator) (plan : Plan),
      ((validator.validate plan).issuesOpening "Circular dependency").length ≤
        plan.population.ids.toFinset.card := by
  have hcount : ∀ population : TaskPopulation,
      ((Rule.circularDependencies population).map Finding.toIssue).length ≤
        population.ids.toFinset.card := by
    intro population
    have hlength := (wellFormed_ofTasks population.tasks).length_backEdges_le
    rw [size_nodes_ofTasks] at hlength
    rw [Rule.circularDependencies, List.length_map, List.length_map]
    exact hlength
  have hg := wellFormed_ofTasks tasks
  refine ⟨hg.backEdges_disjoint, hg.sources_nodup.of_map _, fun area => hcount ⟨area, tasks⟩, ?_⟩
  intro validator plan
  rw [Validator.issuesOpening_circular]
  exact hcount plan.population

end PlanAudit
