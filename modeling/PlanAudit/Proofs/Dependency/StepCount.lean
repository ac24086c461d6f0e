import Mathlib.Algebra.BigOperators.Group.Finset.Piecewise
import PlanAudit.Proofs.Dependency.ExtraDependency

/-! How many steps the search for circular dependencies takes from all roots together: no more than
there are ids, declared or mentioned, and entries of dependency lists. No id is put on the stack
twice. -/
namespace PlanAudit

namespace DependencyGraph

def entries (tasks : List Task) : List String :=
  (tasks.filter (·.id.isSome)).flatMap Task.dependsOn

/-- The ids that the tasks declare, and those that a task with an id depends on. -/
def idsOf (tasks : List Task) : Finset String :=
  (tasks.filterMap Task.id ++ entries tasks).toFinset

theorem mem_entries_iff {tasks : List Task} {target : String} :
    target ∈ entries tasks ↔
      ∃ id ∈ (ofTasks tasks).nodes, target ∈ (ofTasks tasks).dependencies id := by
  simp only [entries, List.mem_flatMap, List.mem_filter, mem_dependencies_ofTasks_iff,
    mem_nodes_ofTasks_iff, Option.isSome_iff_exists]
  constructor
  · rintro ⟨task, ⟨htask, id, hid⟩, htarget⟩
    exact ⟨id, ⟨task, htask, hid⟩, task, htask, hid, htarget⟩
  · rintro ⟨id, _, task, htask, hid, htarget⟩
    exact ⟨task, ⟨htask, id, hid⟩, htarget⟩

theorem allIds_ofTasks (tasks : List Task) : (ofTasks tasks).allIds = idsOf tasks := by
  ext id
  simp only [allIds, idsOf, targets, List.mem_toFinset, List.mem_append, List.mem_flatMap,
    Array.mem_toList_iff, mem_nodes_iff_mem_ids, mem_entries_iff]

/-- A set of ids that holds all declared ones has every entry below one of them. -/
theorem sum_length_dependencies {tasks : List Task} {ids : Finset String}
    (h : ∀ task ∈ tasks, ∀ id ∈ task.id, id ∈ ids) :
    ∑ id ∈ ids, ((ofTasks tasks).dependencies id).length = (entries tasks).length := by
  induction tasks using List.reverseRecOn with
  | nil => simp [dependencies_ofTasks, entries]
  | append_singleton tasks task ih =>
    obtain ⟨hbefore, hlast⟩ := List.forall_mem_append.1 h
    have hids : ∀ id ∈ task.id, id ∈ ids := hlast task (List.mem_singleton_self task)
    simp only [ofTasks_concat, dependencies_add, List.length_append, Finset.sum_add_distrib,
      ih hbefore, entries, List.filter_append, List.flatMap_append]
    cases hid : task.id with
    | none => simp [hid]
    | some id => simp [hid, hids id hid, apply_ite List.length]

/-- The limit of the search in terms of the tasks. -/
theorem stepLimit_ofTasks (tasks : List Task) :
    (ofTasks tasks).stepLimit = (idsOf tasks).card + (entries tasks).length := by
  have hids : ∀ task ∈ tasks, ∀ id ∈ task.id, id ∈ idsOf tasks := by
    intro task htask id hid
    refine List.mem_toFinset.2 (List.mem_append_left _ ?_)
    exact List.mem_filterMap.2 ⟨task, htask, hid⟩
  rw [← (wellFormed_ofTasks tasks).sum_cost, allIds_ofTasks]
  simp [cost, Finset.sum_add_distrib, sum_length_dependencies hids, Nat.add_comm]

end DependencyGraph

namespace Search

open DependencyGraph

variable {g : DependencyGraph} {s t : Search} {steps : Nat} {entered roots : List String}

def raised (s t : Search) : List String :=
  t.path.take (t.path.length - s.path.length)

/-- A step puts no id on the stack, or one that has not been visited. -/
theorem raised_cases (hstep : Step g s t) :
    s.raised t = [] ∨ ∃ id, s.raised t = [id] ∧ id ∉ s.visited ∧ id ∈ t.visited := by
  cases hstep with
  | leave => exact .inl (by simp [raised, path])
  | report => exact .inl (by simp [raised, path])
  | pass => exact .inl (by simp [raised, path])
  | @descend visited onPath id next pending below found hpath hvisited =>
    exact .inr ⟨next, by simp [raised, path, enter], hvisited, Std.HashSet.mem_insert_self⟩

/-- How far the search of a graph can come: the steps that it has taken so far, the ids that it has put
on the stack, in that order, the roots that are left, and its state. The next root is looked at when the
stack is empty. -/
inductive Progress (g : DependencyGraph) :
    (steps : Nat) → (entered roots : List String) → Search → Prop where
  | start : Progress g 0 [] g.nodes.toList .start
  | skip {steps : Nat} {entered roots : List String} {root : String} {s : Search}
      (h : Progress g steps entered (root :: roots) s) (hstack : s.stack = [])
      (hvisited : root ∈ s.visited) : Progress g steps entered roots s
  | take {steps : Nat} {entered roots : List String} {root : String} {s : Search}
      (h : Progress g steps entered (root :: roots) s) (hstack : s.stack = [])
      (hnew : root ∉ s.visited) : Progress g steps (entered ++ [root]) roots (s.enter g root)
  | step {steps : Nat} {entered roots : List String} {s : Search}
      (h : Progress g steps entered roots s) (hstack : s.stack ≠ []) :
      Progress g (steps + 1) (entered ++ s.raised (s.step g)) roots (s.step g)

/-- What the steps taken so far and those that remain come to, and which ids have been put on the
stack. -/
structure Accounted (g : DependencyGraph) (steps : Nat) (entered roots : List String)
    (s : Search) : Prop where
  valid : Valid g s
  roots_declared : ∀ root ∈ roots, root ∈ g.nodes
  steps_le : steps + remaining g s ≤ g.stepLimit
  entered_nodup : entered.Nodup
  entered_visited : ∀ id ∈ entered, id ∈ s.visited

/-- An id that has not been visited has not been put on the stack. -/
theorem nodup_concat_of_visited {id : String} (hnodup : entered.Nodup)
    (hvisited : ∀ other ∈ entered, other ∈ s.visited) (hnew : id ∉ s.visited) :
    (entered ++ [id]).Nodup := by
  rw [← List.concat_eq_append]
  exact hnodup.concat fun hmem => hnew (hvisited id hmem)

theorem Accounted.take {root : String} (h : Accounted g steps entered (root :: roots) s)
    (hstack : s.stack = []) (hnew : root ∉ s.visited) :
    Accounted g steps (entered ++ [root]) roots (s.enter g root) := by
  obtain ⟨hroot, hroots⟩ := List.forall_mem_cons.1 h.roots_declared
  refine ⟨h.valid.enter hnew (by simp [hstack]), hroots, ?_,
    nodup_concat_of_visited h.entered_nodup h.entered_visited hnew, ?_⟩
  · rw [remaining_enter (mem_allIds_of_node hroot) hnew]
    exact h.steps_le
  · refine List.forall_mem_append.2 ⟨fun id hid => ?_, fun id hid => ?_⟩
    · exact Std.HashSet.mem_insert.2 (.inr (h.entered_visited id hid))
    · rw [List.mem_singleton.1 hid]
      exact Std.HashSet.mem_insert_self

theorem Accounted.step (hg : g.WellFormed) (h : Accounted g steps entered roots s)
    (hstep : Step g s t) : Accounted g (steps + 1) (entered ++ s.raised t) roots t := by
  have hdrop := h.valid.remaining_step hg hstep
  have hsteps := h.steps_le
  have hvisited : ∀ id ∈ entered, id ∈ t.visited := fun id hid =>
    visited_mono_step hstep id (h.entered_visited id hid)
  rcases raised_cases hstep with hnone | ⟨id, hone, hnew, hid⟩
  · rw [hnone, List.append_nil]
    exact ⟨h.valid.step hstep, h.roots_declared, by omega, h.entered_nodup, hvisited⟩
  · rw [hone]
    refine ⟨h.valid.step hstep, h.roots_declared, by omega,
      nodup_concat_of_visited h.entered_nodup h.entered_visited hnew, ?_⟩
    exact List.forall_mem_append.2 ⟨hvisited, List.forall_mem_singleton.2 hid⟩

theorem Progress.accounted (hg : g.WellFormed) (h : Progress g steps entered roots s) :
    Accounted g steps entered roots s := by
  induction h with
  | start =>
    refine ⟨valid_start g, fun root hroot => Array.mem_toList_iff.1 hroot, ?_, List.nodup_nil, ?_⟩
    · rw [Nat.zero_add]
      exact remaining_le_stepLimit hg rfl
    · exact List.forall_mem_nil _
  | skip _ _ _ ih =>
    exact { ih with roots_declared := (List.forall_mem_cons.1 ih.roots_declared).2 }
  | take _ hstack hnew ih => exact ih.take hstack hnew
  | step _ hstack ih => exact ih.step hg (step_spec g hstack)

/-- Steps until the stack is empty, taken from a supply of which the rest is given back. There is no
result if the supply runs out. -/
def drain (g : DependencyGraph) : (supply : Nat) → Search → Option (Nat × Search)
  | 0, s => if s.stack.isEmpty then some (0, s) else none
  | supply + 1, s => if s.stack.isEmpty then some (supply + 1, s) else drain g supply (s.step g)

private theorem drain_of_stack_eq_nil (h : s.stack = []) (supply : Nat) :
    drain g supply s = some (supply, s) := by
  cases supply <;> simp [drain, h]

private theorem drain_succ (h : s.stack ≠ []) (supply : Nat) :
    drain g (supply + 1) s = drain g supply (s.step g) := by
  rw [drain, if_neg fun hnil => h (List.isEmpty_iff.1 hnil)]

def exploreWithin (g : DependencyGraph) (point : Nat × Search) (root : String) :
    Option (Nat × Search) :=
  if point.2.visited.contains root then some point else drain g point.1 (point.2.enter g root)

/-- With a supply of steps, after others that it has taken, a search ends in a state with an empty stack,
and gives back what it has not used. -/
def Arrives (g : DependencyGraph) (steps supply : Nat) (roots : List String)
    (outcome : Option (Nat × Search)) (t : Search) : Prop :=
  ∃ used left entered, supply = used + left ∧ outcome = some (left, t) ∧ t.stack = [] ∧
    Progress g (steps + used) entered roots t

theorem Progress.arrives (h : Progress g steps entered roots s) (hstack : s.stack = [])
    (supply : Nat) : Arrives g steps supply roots (some (supply, s)) s :=
  ⟨0, supply, entered, (Nat.zero_add supply).symm, rfl, hstack, h⟩

/-- A supply that makes up the limit together with the steps taken lasts until the stack is empty. -/
theorem Progress.drain (hg : g.WellFormed) (h : Progress g steps entered roots s)
    {supply limit : Nat} (hsupply : g.stepLimit ≤ steps + supply) (hlimit : remaining g s ≤ limit) :
    Arrives g steps supply roots (drain g supply s) (run g limit s) := by
  induction supply generalizing steps entered s limit with
  | zero =>
    have hstack : s.stack = [] := by
      by_contra hstack
      have hsteps := ((h.step hstack).accounted hg).steps_le
      omega
    rw [drain_of_stack_eq_nil hstack, run_of_stack_eq_nil hstack]
    exact h.arrives hstack 0
  | succ supply ih =>
    by_cases hstack : s.stack = []
    · rw [drain_of_stack_eq_nil hstack, run_of_stack_eq_nil hstack]
      exact h.arrives hstack (supply + 1)
    · have hdrop := (h.accounted hg).valid.remaining_step hg (step_spec g hstack)
      obtain ⟨rest, rfl⟩ := Nat.exists_eq_add_of_le' (show 1 ≤ limit by omega)
      have hrun : run g (rest + 1) s = run g rest (s.step g) := by
        rw [run, if_neg fun hnil => hstack (List.isEmpty_iff.1 hnil)]
      have hroom : remaining g (s.step g) ≤ rest := by omega
      obtain ⟨used, left, later, hsum, hdrain, hempty, hprogress⟩ :=
        ih (h.step hstack) (by omega) hroom
      rw [drain_succ hstack, hrun]
      refine ⟨used + 1, left, later, by omega, hdrain, hempty, ?_⟩
      rw [Nat.add_comm used 1, ← Nat.add_assoc]
      exact hprogress

/-- The supply lasts for a root, and the search comes to the same state as with a limit for each root. -/
theorem Progress.exploreWithin (hg : g.WellFormed) {root : String}
    (h : Progress g steps entered (root :: roots) s) (hstack : s.stack = []) {supply : Nat}
    (hsupply : g.stepLimit ≤ steps + supply) :
    Arrives g steps supply roots (exploreWithin g (supply, s) root)
      (s.explore g g.stepLimit root) := by
  by_cases hvisited : root ∈ s.visited
  · rw [explore_of_mem hvisited, Search.exploreWithin,
      if_pos (Std.HashSet.contains_iff_mem.2 hvisited)]
    exact (h.skip hstack hvisited).arrives hstack supply
  · have hroot := (h.accounted hg).roots_declared root List.mem_cons_self
    have hlimit : remaining g (s.enter g root) ≤ g.stepLimit := by
      rw [remaining_enter (mem_allIds_of_node hroot) hvisited]
      exact remaining_le_stepLimit hg hstack
    rw [explore_of_notMem hvisited, Search.exploreWithin,
      if_neg fun hmem => hvisited (Std.HashSet.contains_iff_mem.1 hmem)]
    exact (h.take hstack hvisited).drain hg hsupply hlimit

/-- The supply lasts for all roots that are left. -/
theorem Progress.exploreWithin_all (hg : g.WellFormed) (h : Progress g steps entered roots s)
    (hstack : s.stack = []) {supply : Nat} (hsupply : g.stepLimit ≤ steps + supply) :
    Arrives g steps supply [] (roots.foldlM (Search.exploreWithin g) (supply, s))
      (roots.foldl (Search.explore g g.stepLimit) s) := by
  induction roots generalizing steps entered s supply with
  | nil => exact h.arrives hstack supply
  | cons root roots ih =>
    obtain ⟨used, left, later, hsum, hexplore, hempty, hprogress⟩ :=
      h.exploreWithin hg hstack hsupply
    have hleft : g.stepLimit ≤ steps + used + left := by omega
    obtain ⟨more, rest, last, hrest, hfold, hend, hfinal⟩ := ih hprogress hempty hleft
    refine ⟨used + more, rest, last, by omega, ?_, hend, ?_⟩
    · rw [List.foldlM_cons, hexplore]
      exact hfold
    · rw [← Nat.add_assoc]
      exact hfinal

end Search

namespace DependencyGraph

def searchWithin (g : DependencyGraph) (supply : Nat) : Option (Nat × Search) :=
  g.nodes.toList.foldlM (Search.exploreWithin g) (supply, .start)

end DependencyGraph

open DependencyGraph

/-- The limit is for all roots together, since no id is put on the stack twice. -/
theorem search_ends_within_ids_and_entries (tasks : List Task) :
    let g := ofTasks tasks
    let limit := (idsOf tasks).card + (entries tasks).length
    (∀ steps entered roots s, Search.Progress g steps entered roots s →
      steps ≤ limit ∧ entered.Nodup) ∧
    ∀ supply, limit ≤ supply →
      ∃ steps left entered s, supply = steps + left ∧ g.searchWithin supply = some (left, s) ∧
        Search.Progress g steps entered [] s ∧ s.stack = [] ∧ s.found.toList = g.backEdges := by
  intro g limit
  have hg := wellFormed_ofTasks tasks
  have hlimit : g.stepLimit = limit := stepLimit_ofTasks tasks
  refine ⟨fun steps entered roots s h => ?_, fun supply hsupply => ?_⟩
  · have haccounted := h.accounted hg
    have hsteps : steps + Search.remaining g s ≤ limit := hlimit ▸ haccounted.steps_le
    exact ⟨Nat.le_of_add_right_le hsteps, haccounted.entered_nodup⟩
  · have hroom : g.stepLimit ≤ 0 + supply := by
      rw [hlimit, Nat.zero_add]
      exact hsupply
    obtain ⟨used, left, later, hsum, hsearch, hempty, hprogress⟩ :=
      Search.Progress.start.exploreWithin_all hg rfl hroom
    rw [Nat.zero_add] at hprogress
    exact ⟨used, left, later, _, hsum, hsearch, hprogress, hempty, (backEdges_eq g).symm⟩

/-- Of the seven steps that there is room for the search takes five: the first task is given up
after one step. -/
theorem repeated_dependencies_leave_steps :
    let tasks := twoTasks ["A", "A"] ["C", "C"]
    let g := ofTasks tasks
    let first := (Search.start.enter g "A").step g
    (idsOf tasks).card + (entries tasks).length = 7 ∧
      (Search.Progress g 1 ["A"] ["B"] first ∧ 1 ≤ 7 ∧ ["A"].Nodup) ∧
      (g.searchWithin 7).map Prod.fst = some 2 ∧
      ∃ steps left entered s, 7 = steps + left ∧ g.searchWithin 7 = some (left, s) ∧
        Search.Progress g steps entered [] s ∧ s.stack = [] ∧ s.found.toList = g.backEdges := by
  intro tasks g first
  have hlimit : (idsOf tasks).card + (entries tasks).length = 7 := by decide
  have hnodes : g.nodes.toList = ["A", "B"] := by rw [nodes_twoTasks]
  have hmain := search_ends_within_ids_and_entries tasks
  have hfirst : Search.Progress g 1 ["A"] ["B"] first := by
    have hstart : Search.Progress g 0 [] ["A", "B"] .start := hnodes ▸ .start
    have htaken := hstart.take rfl (by simp [Search.start])
    have hstep := htaken.step (List.cons_ne_nil _ _)
    have hraised : (Search.start.enter g "A").raised first = [] := by
      simp [first, g, tasks, Search.raised, Search.path, Search.step, Search.enter, Search.start,
        dependencies_twoTasks_first]
    rw [hraised] at hstep
    exact hstep
  have hnone : g.dependencies "C" = [] := by
    rw [dependencies_ofTasks]
    simp [tasks, twoTasks]
  refine ⟨hlimit, ⟨hfirst, hlimit ▸ hmain.1 _ _ _ _ hfirst⟩, ?_, hmain.2 7 (Nat.le_of_eq hlimit)⟩
  rw [searchWithin, hnodes]
  simp [g, tasks, Search.exploreWithin, Search.drain, Search.step, Search.enter, Search.start,
    dependencies_twoTasks_first, dependencies_twoTasks_second, hnone]

end PlanAudit
