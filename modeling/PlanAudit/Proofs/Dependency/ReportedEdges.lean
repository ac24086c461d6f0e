import PlanAudit.Proofs.Dependency.ExtraDependency
import PlanAudit.Proofs.PhaseForms

/-! Which edges the search for circular dependencies reports. Every one of them closes a cycle among the
declared ids, every cycle leads to one of them, and an id that the search has left is never again an
end of one. -/
namespace PlanAudit

namespace Search

variable {g : DependencyGraph} {s t u : Search}

def Left (s : Search) (id : String) : Prop :=
  id ∈ s.visited ∧ id ∉ s.path

/-- A search goes on from one state to another: what has been left stays so, and no edge that is
reported on the way ends at it. -/
structure Continues (s t : Search) : Prop where
  left : ∀ {id}, s.Left id → t.Left id
  later : ∃ edges : List BackEdge, t.found.toList = s.found.toList ++ edges ∧
    ∀ edge ∈ edges, ¬ s.Left edge.source ∧ ¬ s.Left edge.target

theorem Continues.of_found_eq (hleft : ∀ {id}, s.Left id → t.Left id) (hfound : t.found = s.found) :
    Continues s t where
  left := hleft
  later := ⟨[], by rw [hfound, List.append_nil], List.forall_mem_nil _⟩

theorem Continues.refl (s : Search) : Continues s s :=
  .of_found_eq (fun h => h) rfl

theorem Continues.trans (hst : Continues s t) (htu : Continues t u) : Continues s u := by
  obtain ⟨first, hfirst, hfirstEnds⟩ := hst.later
  obtain ⟨second, hsecond, hsecondEnds⟩ := htu.later
  refine ⟨fun h => htu.left (hst.left h), first ++ second, ?_, ?_⟩
  · rw [hsecond, hfirst, List.append_assoc]
  · intro edge hedge
    rcases List.mem_append.1 hedge with hedge | hedge
    · exact hfirstEnds edge hedge
    · obtain ⟨hsource, htarget⟩ := hsecondEnds edge hedge
      exact ⟨fun h => hsource (hst.left h), fun h => htarget (hst.left h)⟩

/-- An id that is new has not been left. -/
theorem continues_enter {id : String} (hnew : id ∉ s.visited) : Continues s (s.enter g id) := by
  refine .of_found_eq ?_ rfl
  rintro other ⟨hvisited, hoff⟩
  refine ⟨Std.HashSet.mem_insert.2 (.inr hvisited), fun hmem => ?_⟩
  rcases List.mem_cons.1 hmem with rfl | hmem
  · exact hnew hvisited
  · exact hoff hmem

/-- Passing over a dependency leaves no id. -/
theorem continues_advance {visited onPath : Std.HashSet String} {id next : String}
    {pending : List String} {below : List Frame} {found : Array BackEdge} :
    Continues ⟨visited, onPath, ⟨id, next :: pending⟩ :: below, found⟩
      ⟨visited, onPath, ⟨id, pending⟩ :: below, found⟩ :=
  .of_found_eq (fun h => h) rfl

theorem Valid.continues_step (h : Valid g s) (hstep : Step g s t) : Continues s t := by
  cases hstep with
  | leave =>
    refine .of_found_eq ?_ rfl
    rintro other ⟨hvisited, hoff⟩
    exact ⟨hvisited, fun hmem => hoff (List.mem_cons_of_mem _ hmem)⟩
  | @report visited onPath id next pending below found hpath =>
    -- both ends of the edge lie on the path
    refine ⟨fun hleft => ⟨hleft.1, List.not_mem_nil⟩, [⟨id, next⟩], Array.toList_push, ?_⟩
    intro edge hedge
    rw [List.mem_singleton.1 hedge]
    exact ⟨fun hleft => hleft.2 List.mem_cons_self, fun hleft => hleft.2 (h.onPath_iff.1 hpath)⟩
  | pass => exact continues_advance
  | descend hpath hvisited => exact continues_advance.trans (continues_enter hvisited)

theorem Valid.continues_run (h : Valid g s) (limit : Nat) : Continues s (run g limit s) := by
  have hrun : Valid g (run g limit s) ∧ Continues s (run g limit s) := by
    refine run_induction (P := fun t => Valid g t ∧ Continues s t) ?_ ⟨h, .refl s⟩ limit
    rintro t u ⟨hvalid, hcontinues⟩ hstep
    exact ⟨hvalid.step hstep, hcontinues.trans (hvalid.continues_step hstep)⟩
  exact hrun.2

theorem Valid.continues_explore (h : Valid g s) (hstack : s.stack = []) (limit : Nat)
    (root : String) : Continues s (s.explore g limit root) := by
  by_cases hvisited : root ∈ s.visited
  · rw [explore_of_mem hvisited]
    exact .refl s
  · rw [explore_of_notMem hvisited]
    have hentered : Valid g (s.enter g root) := h.enter hvisited (by simp [hstack])
    exact (continues_enter hvisited).trans (hentered.continues_run limit)

/-- However many steps have been taken from a root, the search goes on to the end from there. -/
theorem Settling.continues_to_end (hg : g.WellFormed) (h : Settling g s) (hstack : s.stack = [])
    {root : String} (hroot : root ∈ g.nodes) (steps : Nat) :
    Continues (s.explore g steps root) (s.explore g g.stepLimit root) := by
  obtain ⟨_, hend, _⟩ := h.explore hg hstack hroot
  by_cases hvisited : root ∈ s.visited
  · rw [explore_of_mem hvisited, explore_of_mem hvisited]
    exact .refl s
  · rw [explore_of_notMem hvisited] at hend
    rw [explore_of_notMem hvisited, explore_of_notMem hvisited]
    rcases Nat.le_total steps g.stepLimit with hle | hle
    · obtain ⟨rest, hrest⟩ := Nat.exists_eq_add_of_le hle
      rw [hrest, run_add]
      exact (run_induction Valid.step (h.enter hstack hvisited).valid steps).continues_run rest
    · -- the stack is empty at the limit, and further steps do nothing
      obtain ⟨rest, hrest⟩ := Nat.exists_eq_add_of_le hle
      rw [hrest, run_add, run_of_stack_eq_nil hend]
      exact .refl _

theorem Settling.continues_explore_all (hg : g.WellFormed) (roots : List String)
    (hroots : ∀ root ∈ roots, root ∈ g.nodes) (h : Settling g s) (hstack : s.stack = []) :
    Continues s (roots.foldl (Search.explore g g.stepLimit) s) := by
  induction roots generalizing s with
  | nil => exact .refl s
  | cons root roots ih =>
    obtain ⟨hroot, hrest⟩ := List.forall_mem_cons.1 hroots
    obtain ⟨hsettling, hempty, _⟩ := h.explore hg hstack hroot
    exact (h.valid.continues_explore hstack _ root).trans (ih hrest hsettling hempty)

end Search

namespace DependencyGraph

variable {g : DependencyGraph}

/-- The search when it has come to an end with some roots and has taken some steps from the next. -/
def searchAt (g : DependencyGraph) (done : List String) (root : String) (steps : Nat) : Search :=
  (done.foldl (Search.explore g g.stepLimit) .start).explore g steps root

/-- The edges that are reported are those found so far and later ones, and these do not end at an
id that has been left. -/
theorem WellFormed.backEdges_from (hg : g.WellFormed) {done rest : List String} {root : String}
    (hnodes : g.nodes.toList = done ++ root :: rest) (steps : Nat) :
    ∃ later, g.backEdges = (g.searchAt done root steps).found.toList ++ later ∧
      ∀ edge ∈ later, ¬ (g.searchAt done root steps).Left edge.source ∧
        ¬ (g.searchAt done root steps).Left edge.target := by
  have hmem : ∀ id ∈ done ++ root :: rest, id ∈ g.nodes := by
    intro id hid
    rw [← hnodes] at hid
    exact Array.mem_toList_iff.1 hid
  obtain ⟨hdone, hroot, hrest⟩ : (∀ id ∈ done, id ∈ g.nodes) ∧ root ∈ g.nodes ∧
      ∀ id ∈ rest, id ∈ g.nodes := by
    rw [List.forall_mem_append, List.forall_mem_cons] at hmem
    exact hmem
  obtain ⟨hs, hstack, _⟩ := (Search.settling_start g).explore_all hg done hdone rfl
  obtain ⟨ht, hempty, _⟩ := hs.explore hg hstack hroot
  have hcontinues := (hs.continues_to_end hg hstack hroot steps).trans
    (ht.continues_explore_all hg rest hrest hempty)
  rw [backEdges_eq, hnodes, List.foldl_append, List.foldl_cons]
  exact hcontinues.later

/-- A set of ids that holds what its ids depend on holds all that they lead to. -/
theorem Reaches.mem_of_closed {id node : String} (h : g.Reaches id node) {region : Set String}
    (hclosed : ∀ id ∈ region, ∀ target ∈ g.dependencies id, target ∈ region)
    (hid : id ∈ region) : node ∈ region := by
  induction h with
  | refl => exact hid
  | tail _ hstep ih => exact hclosed _ ih _ hstep

def ReachesDeclared (g : DependencyGraph) : String → String → Prop :=
  Relation.ReflTransGen fun id target =>
    id ∈ g.nodes ∧ target ∈ g.nodes ∧ target ∈ g.dependencies id

/-- Whatever leads to a declared id is declared, because it depends on something. -/
theorem WellFormed.reachesDeclared (hg : g.WellFormed) {id node : String} (hnode : node ∈ g.nodes)
    (h : g.Reaches id node) : id ∈ g.nodes ∧ g.ReachesDeclared id node := by
  induction h using Relation.ReflTransGen.head_induction_on with
  | refl => exact ⟨hnode, .refl⟩
  | head hstep _ ih =>
    have hid := hg.declared hstep
    exact ⟨hid, .head ⟨hid, ih.1, hstep⟩ ih.2⟩

end DependencyGraph

open DependencyGraph

/-- From every id on a cycle dependencies lead to the source of a reported edge. So no set of ids that
holds a cycle, together with all that its ids depend on, goes without a report. -/
theorem cyclic_ids_lead_to_reports (tasks : List Task) {id : String}
    (h : (ofTasks tasks).Precedes id id) :
    (∃ edge ∈ (ofTasks tasks).backEdges, (ofTasks tasks).Reaches id edge.source) ∧
      ∀ region : Set String, id ∈ region →
        (∀ node ∈ region, ∀ target ∈ (ofTasks tasks).dependencies node, target ∈ region) →
        ∃ edge ∈ (ofTasks tasks).backEdges, edge.source ∈ region ∧ edge.target ∈ region := by
  have hg := wellFormed_ofTasks tasks
  obtain ⟨edge, hedge, hpath⟩ := hg.exists_backEdge_of_cycle h
  refine ⟨⟨edge, hedge, hpath⟩, fun region hid hclosed => ⟨edge, hedge, ?_⟩⟩
  have hsource : edge.source ∈ region := Reaches.mem_of_closed hpath hclosed hid
  exact ⟨hsource, hclosed _ hsource _ (hg.closing_of_mem_backEdges hedge).1⟩

/-- Two tasks depend on each other and the second one also on itself. Only that is reported, so the
first task lies on a cycle none of whose edges is, and leads to the edge that is. -/
theorem unreported_cycle_leads_to_report :
    (ofTasks (twoTasks ["B"] ["B", "A"])).Precedes "A" "A" ∧
      (ofTasks (twoTasks ["B"] ["B", "A"])).backEdges = [⟨"B", "B"⟩] ∧
      ∃ edge ∈ (ofTasks (twoTasks ["B"] ["B", "A"])).backEdges,
        (ofTasks (twoTasks ["B"] ["B", "A"])).Reaches "A" edge.source := by
  have hcycle : (ofTasks (twoTasks ["B"] ["B", "A"])).Precedes "A" "A" := by
    refine .tail (b := "B") (.single ?_) ?_
    · rw [dependencies_twoTasks_first]
      decide
    · rw [dependencies_twoTasks_second]
      decide
  have hlimit : (ofTasks (twoTasks ["B"] ["B", "A"])).stepLimit = 5 := by
    rw [stepLimit_twoTasks]
    decide
  refine ⟨hcycle, ?_, (cyclic_ids_lead_to_reports _ hcycle).1⟩
  rw [backEdges_eq, nodes_twoTasks, hlimit]
  simp [Search.explore, Search.run, Search.step, Search.enter, Search.start,
    dependencies_twoTasks_first, dependencies_twoTasks_second]

theorem Validator.issuesOpening_circular (validator : Validator) (plan : Plan) :
    (validator.validate plan).issuesOpening "Circular dependency" =
      (Rule.circularDependencies plan.population).map Finding.toIssue :=
  issuesOpening_of_mem_taskRules validator plan (by simp [taskRules])

/-- The message of every issue about a circular dependency names a reported edge. -/
theorem Validator.circular_issue_names_edge (validator : Validator) (plan : Plan) {issue : Issue}
    (h : issue ∈ (validator.validate plan).issuesOpening "Circular dependency") :
    ∃ edge ∈ (ofTasks plan.population.tasks).backEdges,
      issue.message = s!"Circular dependency detected: {edge.source} -> {edge.target}" := by
  rw [issuesOpening_circular, Rule.circularDependencies, List.map_map] at h
  obtain ⟨edge, hedge, rfl⟩ := List.mem_map.1 h
  exact ⟨edge, hedge, rfl⟩

/-- The path that closes a cycle goes through declared ids only, and it never comes back to an id
that the search has left, under whichever root. -/
theorem reported_edges_close_cycles (tasks : List Task) :
    let g := ofTasks tasks
    (∀ edge ∈ g.backEdges, edge.source ∈ g.nodes ∧ edge.target ∈ g.nodes ∧
      edge.target ∈ g.dependencies edge.source ∧
      g.ReachesDeclared edge.target edge.source) ∧
    (∀ (validator : Validator) (plan : Plan), plan.population.tasks = tasks →
      ∀ issue ∈ (validator.validate plan).issuesOpening "Circular dependency",
        ∃ edge ∈ g.backEdges,
          issue.message = s!"Circular dependency detected: {edge.source} -> {edge.target}") ∧
    (∀ (done rest : List String) (root : String) (steps : Nat),
      g.nodes.toList = done ++ root :: rest →
      ∃ later, g.backEdges = (g.searchAt done root steps).found.toList ++ later ∧
        ∀ edge ∈ later, ¬ (g.searchAt done root steps).Left edge.source ∧
          ¬ (g.searchAt done root steps).Left edge.target) ∧
    ∀ source target, target ∉ g.nodes ∨ ¬ g.Reaches target source →
      ⟨source, target⟩ ∉ g.backEdges := by
  have hg := wellFormed_ofTasks tasks
  have hends : ∀ edge ∈ (ofTasks tasks).backEdges,
      edge.source ∈ (ofTasks tasks).nodes ∧ edge.target ∈ (ofTasks tasks).nodes ∧
        edge.target ∈ (ofTasks tasks).dependencies edge.source ∧
        (ofTasks tasks).ReachesDeclared edge.target edge.source := by
    intro edge hedge
    obtain ⟨hstep, hback⟩ := hg.closing_of_mem_backEdges hedge
    obtain ⟨htarget, hpath⟩ := hg.reachesDeclared (hg.declared hstep) hback
    exact ⟨hg.declared hstep, htarget, hstep, hpath⟩
  refine ⟨hends, ?_, ?_, ?_⟩
  · rintro validator plan rfl issue hissue
    exact validator.circular_issue_names_edge plan hissue
  · intro done rest root steps hnodes
    exact hg.backEdges_from hnodes steps
  · rintro source target (hundeclared | hnone) hedge
    · exact hundeclared (hends _ hedge).2.1
    · exact hnone (hg.closing_of_mem_backEdges hedge).2

/-- Two tasks depend on each other and on an id that is not declared. The search meets that id first,
leaves it and reports the other dependency. -/
theorem mutual_dependency_reported :
    ⟨"B", "A"⟩ ∈ (ofTasks (twoTasks ["B", "C"] ["C", "A"])).backEdges ∧
      (ofTasks (twoTasks ["B", "C"] ["C", "A"])).ReachesDeclared "A" "B" ∧
      ⟨"B", "C"⟩ ∉ (ofTasks (twoTasks ["B", "C"] ["C", "A"])).backEdges := by
  have hlimit : (ofTasks (twoTasks ["B", "C"] ["C", "A"])).stepLimit = 7 := by
    rw [stepLimit_twoTasks]
    decide
  have hnone : (ofTasks (twoTasks ["B", "C"] ["C", "A"])).dependencies "C" = [] := by
    rw [dependencies_ofTasks]
    simp [twoTasks]
  have hedge : ⟨"B", "A"⟩ ∈ (ofTasks (twoTasks ["B", "C"] ["C", "A"])).backEdges := by
    rw [backEdges_eq, nodes_twoTasks, hlimit]
    simp [Search.explore, Search.run, Search.step, Search.enter, Search.start,
      dependencies_twoTasks_first, dependencies_twoTasks_second, hnone]
  have hundeclared : "C" ∉ (ofTasks (twoTasks ["B", "C"] ["C", "A"])).nodes := by
    simp [nodes_twoTasks]
  have hmain := reported_edges_close_cycles (twoTasks ["B", "C"] ["C", "A"])
  exact ⟨hedge, (hmain.1 _ hedge).2.2.2, hmain.2.2.2 "B" "C" (.inl hundeclared)⟩

end PlanAudit
