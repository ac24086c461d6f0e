import Mathlib.Data.List.Induction
import Mathlib.Data.List.Nodup
import Mathlib.Logic.Relation
import PlanAudit.Dependency.Graph

/-! What the graph of a list of tasks holds, and paths along dependencies. -/
namespace PlanAudit

namespace DependencyGraph

/-- The ids are listed once each, and only they depend on anything. -/
structure WellFormed (g : DependencyGraph) : Prop where
  nodes_nodup : g.nodes.toList.Nodup
  declared : ∀ {id target : String}, target ∈ g.dependencies id → id ∈ g.nodes

def Reaches (g : DependencyGraph) : String → String → Prop :=
  Relation.ReflTransGen fun id target => target ∈ g.dependencies id

def Precedes (g : DependencyGraph) : String → String → Prop :=
  Relation.TransGen fun id target => target ∈ g.dependencies id

def Acyclic (g : DependencyGraph) : Prop :=
  ∀ id, ¬ g.Precedes id id

/-- No path along dependencies goes on from the id for ever. -/
def Grounded (g : DependencyGraph) (id : String) : Prop :=
  Acc (fun target id => target ∈ g.dependencies id) id

theorem grounded_iff (g : DependencyGraph) (id : String) :
    g.Grounded id ↔ ∀ target ∈ g.dependencies id, g.Grounded target :=
  ⟨fun h _ htarget => h.inv htarget, fun h => Acc.intro id h⟩

/-- A grounded id lies on no cycle. -/
theorem Grounded.not_precedes_self {g : DependencyGraph} {id : String} (h : g.Grounded id) :
    ¬ g.Precedes id id := by
  induction h with
  | intro id _ ih =>
    intro hcycle
    obtain ⟨target, hstep, hback⟩ := Relation.TransGen.head'_iff.1 hcycle
    exact ih target hstep (Relation.TransGen.tail'_iff.2 ⟨id, hback, hstep⟩)

theorem Grounded.of_reaches {g : DependencyGraph} {id node : String} (h : g.Grounded id)
    (hpath : g.Reaches id node) : g.Grounded node := by
  induction hpath with
  | refl => exact h
  | tail _ hstep ih => exact (g.grounded_iff _).1 ih _ hstep

/-- What adding a task can do: nothing, extend what an id depends on, or declare a new id. -/
theorem add_cases (g : DependencyGraph) (task : Task) :
    (task.id = none ∧ g.add task = g) ∨
    (∃ id old, task.id = some id ∧ g.edges[id]? = some old ∧
      g.add task = ⟨g.nodes, g.edges.insert id (old ++ task.dependsOn)⟩) ∨
    (∃ id, task.id = some id ∧ g.edges[id]? = none ∧
      g.add task = ⟨g.nodes.push id, g.edges.insert id task.dependsOn⟩) := by
  cases htask : task.id with
  | none => exact .inl ⟨rfl, by simp only [add, htask]⟩
  | some id =>
    cases hold : g.edges[id]? with
    | none => exact .inr (.inr ⟨id, rfl, hold, by simp only [add, htask, hold]⟩)
    | some old => exact .inr (.inl ⟨id, old, rfl, hold, by simp only [add, htask, hold]⟩)

theorem dependencies_add (g : DependencyGraph) (task : Task) (id : String) :
    (g.add task).dependencies id =
      g.dependencies id ++ if task.id = some id then task.dependsOn else [] := by
  rcases g.add_cases task with
    ⟨hnone, hadd⟩ | ⟨own, old, hown, hold, hadd⟩ | ⟨own, hown, hnew, hadd⟩
  · simp [hadd, hnone]
  · rw [hadd, hown, dependencies, Std.HashMap.getD_insert]
    by_cases heq : own = id
    · subst heq
      simp [dependencies, Std.HashMap.getD_eq_getD_getElem?, hold]
    · simp [dependencies, heq]
  · rw [hadd, hown, dependencies, Std.HashMap.getD_insert]
    by_cases heq : own = id
    · subst heq
      simp [dependencies, Std.HashMap.getD_eq_getD_getElem?, hnew]
    · simp [dependencies, heq]

structure Consistent (g : DependencyGraph) : Prop where
  mem_edges_iff : ∀ id, id ∈ g.edges ↔ id ∈ g.nodes
  nodes_nodup : g.nodes.toList.Nodup

theorem Consistent.mem_nodes_of_getElem? {g : DependencyGraph} (h : g.Consistent) {id : String}
    {old : List String} (hold : g.edges[id]? = some old) : id ∈ g.nodes := by
  rw [← h.mem_edges_iff, Std.HashMap.mem_iff_isSome_getElem?, hold]
  rfl

theorem Consistent.notMem_nodes_of_getElem? {g : DependencyGraph} (h : g.Consistent) {id : String}
    (hnew : g.edges[id]? = none) : id ∉ g.nodes := by
  rw [← h.mem_edges_iff, Std.HashMap.mem_iff_isSome_getElem?, hnew]
  simp

theorem Consistent.add {g : DependencyGraph} (h : g.Consistent) (task : Task) :
    (g.add task).Consistent := by
  rcases g.add_cases task with ⟨_, hadd⟩ | ⟨own, old, _, hold, hadd⟩ | ⟨own, _, hnew, hadd⟩
  · rw [hadd]
    exact h
  · have hmem := h.mem_nodes_of_getElem? hold
    rw [hadd]
    refine ⟨fun id => ?_, h.nodes_nodup⟩
    rw [Std.HashMap.mem_insert, h.mem_edges_iff, beq_iff_eq]
    exact ⟨fun hid => hid.elim (fun heq => heq ▸ hmem) fun hid => hid, .inr⟩
  · have hfresh := h.notMem_nodes_of_getElem? hnew
    rw [hadd]
    refine ⟨fun id => ?_, ?_⟩
    · rw [Std.HashMap.mem_insert, h.mem_edges_iff, Array.mem_push, beq_iff_eq]
      exact ⟨fun hid => hid.elim (fun heq => .inr heq.symm) .inl,
        fun hid => hid.elim .inr fun heq => .inl heq.symm⟩
    · rw [Array.toList_push, List.nodup_append]
      refine ⟨h.nodes_nodup, List.nodup_singleton own, fun id hid other hother heq => hfresh ?_⟩
      rw [← List.mem_singleton.1 hother, ← heq]
      exact Array.mem_toList_iff.1 hid

/-- Only a new id changes the list of ids. -/
theorem Consistent.nodes_add {g : DependencyGraph} (h : g.Consistent) (task : Task) :
    (g.add task).nodes = task.id.elim g.nodes fun id =>
      if id ∈ g.nodes then g.nodes else g.nodes.push id := by
  rcases g.add_cases task with
    ⟨hnone, hadd⟩ | ⟨own, old, hown, hold, hadd⟩ | ⟨own, hown, hnew, hadd⟩
  · simp [hadd, hnone]
  · simp [hadd, hown, h.mem_nodes_of_getElem? hold]
  · simp [hadd, hown, h.notMem_nodes_of_getElem? hnew]

theorem Consistent.mem_nodes_add_iff {g : DependencyGraph} (h : g.Consistent) (task : Task)
    (id : String) : id ∈ (g.add task).nodes ↔ id ∈ g.nodes ∨ task.id = some id := by
  rw [h.nodes_add]
  cases task.id with
  | none => simp
  | some own =>
    rw [Option.elim_some, Option.some_inj]
    split_ifs with hmem
    · exact ⟨.inl, fun hid => hid.elim (fun hid => hid) fun heq => heq ▸ hmem⟩
    · rw [Array.mem_push, eq_comm]

theorem ofTasks_concat (tasks : List Task) (task : Task) :
    ofTasks (tasks ++ [task]) = (ofTasks tasks).add task := by
  simp [ofTasks]

/-- The dependencies of all tasks that declare an id, one task after the other. -/
theorem dependencies_ofTasks (tasks : List Task) (id : String) :
    (ofTasks tasks).dependencies id =
      (tasks.filter (·.id = some id)).flatMap Task.dependsOn := by
  induction tasks using List.reverseRecOn with
  | nil => simp [ofTasks, empty, dependencies]
  | append_singleton tasks task ih =>
    rw [ofTasks_concat, dependencies_add, ih, List.filter_append, List.flatMap_append]
    by_cases h : task.id = some id <;> simp [h]

theorem mem_dependencies_ofTasks_iff {tasks : List Task} {id target : String} :
    target ∈ (ofTasks tasks).dependencies id ↔
      ∃ task ∈ tasks, task.id = some id ∧ target ∈ task.dependsOn := by
  rw [dependencies_ofTasks, List.mem_flatMap]
  simp only [List.mem_filter, decide_eq_true_eq, and_assoc]

theorem consistent_ofTasks (tasks : List Task) : (ofTasks tasks).Consistent := by
  induction tasks using List.reverseRecOn with
  | nil => exact ⟨by simp [ofTasks, empty], by simp [ofTasks, empty]⟩
  | append_singleton tasks task ih =>
    rw [ofTasks_concat]
    exact ih.add task

/-- The ids, in the order of their first declaration. -/
theorem nodes_ofTasks (tasks : List Task) :
    (ofTasks tasks).nodes =
      (tasks.filterMap Task.id).foldl (fun nodes id => if id ∈ nodes then nodes else nodes.push id)
        #[] := by
  induction tasks using List.reverseRecOn with
  | nil => rfl
  | append_singleton tasks task ih =>
    rw [ofTasks_concat, (consistent_ofTasks tasks).nodes_add, ih, List.filterMap_append,
      List.foldl_append]
    cases hid : task.id <;> simp [hid]

theorem mem_nodes_ofTasks_iff {tasks : List Task} {id : String} :
    id ∈ (ofTasks tasks).nodes ↔ ∃ task ∈ tasks, task.id = some id := by
  induction tasks using List.reverseRecOn with
  | nil => simp [ofTasks, empty]
  | append_singleton tasks task ih =>
    rw [ofTasks_concat, (consistent_ofTasks tasks).mem_nodes_add_iff, ih]
    simp [or_and_right, exists_or]

theorem mem_nodes_iff_mem_ids {tasks : List Task} {id : String} :
    id ∈ (ofTasks tasks).nodes ↔ id ∈ tasks.filterMap Task.id := by
  rw [mem_nodes_ofTasks_iff, List.mem_filterMap]

theorem wellFormed_ofTasks (tasks : List Task) : (ofTasks tasks).WellFormed := by
  refine ⟨(consistent_ofTasks tasks).nodes_nodup, fun {id target} htarget => ?_⟩
  obtain ⟨task, htask, hid, _⟩ := mem_dependencies_ofTasks_iff.1 htarget
  exact mem_nodes_ofTasks_iff.2 ⟨task, htask, hid⟩

end DependencyGraph

end PlanAudit
