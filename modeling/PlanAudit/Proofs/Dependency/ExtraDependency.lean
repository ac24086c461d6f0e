import PlanAudit.Proofs.Dependency.LiveSearch
import PlanAudit.Proofs.Score
import PlanAudit.Rule.Tasks

/-! What one more dependency between tasks does to the circular dependencies that are reported. -/
namespace PlanAudit

/-- The second list is the first one, but one of its tasks depends on one more id. -/
inductive ExtraDependency (id : String) : List Task → List Task → Prop where
  | intro (before after : List Task) (task : Task) (front back : List String)
      (h : task.dependsOn = front ++ back) :
      ExtraDependency id (before ++ task :: after)
        (before ++ { task with dependsOn := front ++ id :: back } :: after)

namespace ExtraDependency

open DependencyGraph

variable {id : String} {tasks extended : List Task}

theorem nodes_eq (h : ExtraDependency id tasks extended) :
    (ofTasks extended).nodes = (ofTasks tasks).nodes := by
  cases h with
  | intro before after task front back h =>
    rw [nodes_ofTasks, nodes_ofTasks, List.filterMap_append, List.filterMap_append,
      List.filterMap_cons, List.filterMap_cons]

/-- What a node depends on stays the same or has the id put in somewhere. -/
theorem dependencies_cases (h : ExtraDependency id tasks extended) (node : String) :
    (ofTasks extended).dependencies node = (ofTasks tasks).dependencies node ∨
      ∃ front back, (ofTasks tasks).dependencies node = front ++ back ∧
        (ofTasks extended).dependencies node = front ++ id :: back := by
  cases h with
  | intro before after task front back h =>
    simp only [dependencies_ofTasks, List.filter_append, List.filter_cons, List.flatMap_append]
    by_cases hnode : task.id = some node
    · refine .inr ⟨(before.filter (·.id = some node)).flatMap Task.dependsOn ++ front,
        back ++ (after.filter (·.id = some node)).flatMap Task.dependsOn, ?_, ?_⟩
      · simp [hnode, h]
      · simp [hnode]
    · exact .inl (by simp [hnode])

theorem mem_dependencies (h : ExtraDependency id tasks extended) {node target : String}
    (htarget : target ∈ (ofTasks tasks).dependencies node) :
    target ∈ (ofTasks extended).dependencies node := by
  rcases h.dependencies_cases node with heq | ⟨front, back, hold, hnew⟩
  · rwa [heq]
  · rw [hold, List.mem_append] at htarget
    rw [hnew, List.mem_append, List.mem_cons]
    exact htarget.imp_right .inr

theorem eq_or_mem_dependencies (h : ExtraDependency id tasks extended) {node target : String}
    (htarget : target ∈ (ofTasks extended).dependencies node) :
    target = id ∨ target ∈ (ofTasks tasks).dependencies node := by
  rcases h.dependencies_cases node with heq | ⟨front, back, hold, hnew⟩
  · rw [heq] at htarget
    exact .inr htarget
  · rw [hnew, List.mem_append, List.mem_cons] at htarget
    rw [hold, List.mem_append]
    grind

/-- Every cycle is still there. -/
theorem precedes (h : ExtraDependency id tasks extended) {node other : String}
    (hpath : (ofTasks tasks).Precedes node other) : (ofTasks extended).Precedes node other :=
  Relation.TransGen.mono (fun _ _ htarget => h.mem_dependencies htarget) _ _ hpath

/-- If the id itself leads to no cycle, the same nodes as before lead to none. -/
theorem grounded_iff_of_grounded (h : ExtraDependency id tasks extended)
    (hid : (ofTasks extended).Grounded id) (node : String) :
    (ofTasks extended).Grounded node ↔ (ofTasks tasks).Grounded node := by
  constructor
  · intro hnode
    induction hnode with
    | intro node _ ih =>
      exact (grounded_iff _ node).2 fun target htarget => ih target (h.mem_dependencies htarget)
  · intro hnode
    induction hnode with
    | intro node _ ih =>
      refine (grounded_iff _ node).2 fun target htarget => ?_
      rcases h.eq_or_mem_dependencies htarget with rfl | hold
      · exact hid
      · exact ih target hold

open Classical in
/-- If the id leads to no cycle, the same edges are reported. -/
theorem backEdges_eq_of_grounded (h : ExtraDependency id tasks extended)
    (hid : (ofTasks extended).Grounded id) :
    (ofTasks extended).backEdges = (ofTasks tasks).backEdges := by
  let live : String → Bool := fun node => !decide ((ofTasks extended).Grounded node)
  have hlive : (ofTasks extended).Live live := by
    intro node
    simp [live]
  have hliveBefore : (ofTasks tasks).Live live := by
    intro node
    rw [hlive node, h.grounded_iff_of_grounded hid]
  refine backEdges_eq_of_live (wellFormed_ofTasks extended) (wellFormed_ofTasks tasks) h.nodes_eq
    hlive hliveBefore ?_
  funext node
  rw [dependenciesIn, dependenciesIn]
  rcases h.dependencies_cases node with heq | ⟨front, back, hold, hnew⟩
  · rw [heq]
  · have hdropped : live id = false := by simp [live, hid]
    simp [hold, hnew, hdropped]

/-- From every id on a cycle dependencies still lead to an edge that is reported. -/
theorem exists_backEdge (h : ExtraDependency id tasks extended) {node : String}
    (hcycle : (ofTasks tasks).Precedes node node) :
    ∃ edge ∈ (ofTasks extended).backEdges, (ofTasks extended).Reaches node edge.source :=
  (wellFormed_ofTasks extended).exists_backEdge_of_cycle (h.precedes hcycle)

end ExtraDependency

open DependencyGraph

def TaskPopulation.cyclePenalty (population : TaskPopulation) : Nat :=
  totalPenalty ((Rule.circularDependencies population).map Finding.toIssue)

theorem cyclePenalty_eq (area : String) (tasks : List Task) :
    TaskPopulation.cyclePenalty ⟨area, tasks⟩ =
      min (10 * (ofTasks tasks).backEdges.length) penaltyLimit := by
  have hpenalty : ∀ edges : List BackEdge,
      (edges.map fun edge => (Finding.circularDependency area edge).toIssue.severity.penalty) =
        List.replicate edges.length 10 := by
    intro edges
    exact List.map_const' ..
  rw [TaskPopulation.cyclePenalty, totalPenalty_eq, Rule.circularDependencies, List.map_map,
    List.map_map]
  simp only [Function.comp_def, hpenalty, List.sum_replicate_nat]
  rw [Nat.mul_comm]

/-- Which edges are reported may change, but dependencies lead from every old cycle to one of them.
-/
theorem extra_dependency_keeps_cycles_reported {id : String} {tasks extended : List Task}
    (h : ExtraDependency id tasks extended) (area : String) :
    (∀ node, (ofTasks tasks).Precedes node node →
      ∃ edge ∈ (ofTasks extended).backEdges, (ofTasks extended).Reaches node edge.source) ∧
    ((ofTasks tasks).backEdges ≠ [] →
      (ofTasks extended).backEdges ≠ [] ∧ 10 ≤ TaskPopulation.cyclePenalty ⟨area, extended⟩) ∧
    ((∀ node, (ofTasks extended).Reaches id node → ¬ (ofTasks extended).Precedes node node) →
      (ofTasks extended).backEdges = (ofTasks tasks).backEdges ∧
        TaskPopulation.cyclePenalty ⟨area, extended⟩ =
          TaskPopulation.cyclePenalty ⟨area, tasks⟩) := by
  refine ⟨fun node hcycle => h.exists_backEdge hcycle, fun hbefore => ?_, fun hnone => ?_⟩
  · obtain ⟨edge, hedge⟩ := List.exists_mem_of_ne_nil _ hbefore
    obtain ⟨hstep, hback⟩ := (wellFormed_ofTasks tasks).closing_of_mem_backEdges hedge
    obtain ⟨found, hfound, _⟩ := h.exists_backEdge (.head' hstep hback)
    have hpos := List.length_pos_of_mem hfound
    have hlimit : 10 ≤ penaltyLimit := by decide
    refine ⟨List.ne_nil_of_mem hfound, ?_⟩
    rw [cyclePenalty_eq]
    omega
  · have hid := (wellFormed_ofTasks extended).grounded_iff_no_cycle.2 hnone
    have hsame := h.backEdges_eq_of_grounded hid
    rw [cyclePenalty_eq, cyclePenalty_eq, hsame]
    exact ⟨rfl, rfl⟩

def twoTasks (first second : List String) : List Task :=
  [⟨some "A", none, first, none⟩, ⟨some "B", none, second, none⟩]

section TwoTasks

variable (first second : List String)

theorem nodes_twoTasks : (ofTasks (twoTasks first second)).nodes = #["A", "B"] := by
  rw [nodes_ofTasks]
  simp [twoTasks]

theorem dependencies_twoTasks_first :
    (ofTasks (twoTasks first second)).dependencies "A" = first := by
  rw [dependencies_ofTasks]
  simp [twoTasks]

theorem dependencies_twoTasks_second :
    (ofTasks (twoTasks first second)).dependencies "B" = second := by
  rw [dependencies_ofTasks]
  simp [twoTasks]

theorem stepLimit_twoTasks :
    (ofTasks (twoTasks first second)).stepLimit =
      ("A" :: "B" :: (first ++ second)).toFinset.card + (first ++ second).length := by
  rw [stepLimit, idCount_eq_card, allIds, targets, nodes_twoTasks]
  simp [dependencies_twoTasks_first, dependencies_twoTasks_second]

end TwoTasks

/-- The second task depends on nothing, so that the first one depends on it changes nothing. -/
theorem extra_dependency_on_independent_task :
    ExtraDependency "B" (twoTasks ["A"] []) (twoTasks ["B", "A"] []) ∧
      (∃ edge ∈ (ofTasks (twoTasks ["B", "A"] [])).backEdges,
        (ofTasks (twoTasks ["B", "A"] [])).Reaches "A" edge.source) ∧
      (ofTasks (twoTasks ["B", "A"] [])).backEdges = (ofTasks (twoTasks ["A"] [])).backEdges := by
  have h : ExtraDependency "B" (twoTasks ["A"] []) (twoTasks ["B", "A"] []) :=
    .intro [] _ ⟨some "A", none, ["A"], none⟩ [] ["A"] rfl
  have hcycle : (ofTasks (twoTasks ["A"] [])).Precedes "A" "A" := by
    refine .single ?_
    rw [dependencies_twoTasks_first]
    exact List.mem_singleton_self "A"
  have hgrounded : (ofTasks (twoTasks ["B", "A"] [])).Grounded "B" := by
    rw [grounded_iff, dependencies_twoTasks_second]
    exact fun _ htarget => absurd htarget List.not_mem_nil
  have hmain := extra_dependency_keeps_cycles_reported h phasesKey
  exact ⟨h, hmain.1 "A" hcycle,
    (hmain.2.2 ((wellFormed_ofTasks _).grounded_iff_no_cycle.1 hgrounded)).1⟩

/-- A further dependency can make the number of reported edges smaller. The search from the first
task now ends at the cycle of the second one and does not come to the task's own. -/
theorem extra_dependency_can_hide_cycle :
    ExtraDependency "B" (twoTasks ["A"] ["B"]) (twoTasks ["B", "A"] ["B"]) ∧
      (∃ task ∈ twoTasks ["A"] ["B"], task.id = some "B") ∧
      (ofTasks (twoTasks ["A"] ["B"])).backEdges = [⟨"A", "A"⟩, ⟨"B", "B"⟩] ∧
      (ofTasks (twoTasks ["B", "A"] ["B"])).backEdges = [⟨"B", "B"⟩] := by
  refine ⟨.intro [] _ ⟨some "A", none, ["A"], none⟩ [] ["A"] rfl, by simp [twoTasks], ?_, ?_⟩
  · have hlimit : (ofTasks (twoTasks ["A"] ["B"])).stepLimit = 4 := by
      rw [stepLimit_twoTasks]
      decide
    rw [backEdges_eq, nodes_twoTasks, hlimit]
    simp [Search.explore, Search.run, Search.step, Search.enter, Search.start,
      dependencies_twoTasks_first, dependencies_twoTasks_second]
  · have hlimit : (ofTasks (twoTasks ["B", "A"] ["B"])).stepLimit = 5 := by
      rw [stepLimit_twoTasks]
      decide
    rw [backEdges_eq, nodes_twoTasks, hlimit]
    simp [Search.explore, Search.run, Search.step, Search.enter, Search.start,
      dependencies_twoTasks_first, dependencies_twoTasks_second]

end PlanAudit
