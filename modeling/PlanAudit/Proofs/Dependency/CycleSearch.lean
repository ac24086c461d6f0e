import PlanAudit.Proofs.Dependency.Termination

/-! The search for circular dependencies reports edges of cycles only, and from every id on a cycle
dependencies lead to an edge that it reports. -/
namespace PlanAudit

namespace Search

open DependencyGraph

variable {g : DependencyGraph} {s t : Search}

/-- The search is done with an id: dependencies lead from it to a reported edge, or nowhere for
ever. -/
def Settled (g : DependencyGraph) (found : Array BackEdge) (id : String) : Prop :=
  (∃ edge ∈ found, g.Reaches id edge.source) ∨ g.Grounded id

theorem Settled.push {found : Array BackEdge} {id : String} (h : Settled g found id)
    (edge : BackEdge) : Settled g (found.push edge) id := by
  rcases h with ⟨other, hother, hreach⟩ | hgrounded
  · exact .inl ⟨other, Array.mem_push_of_mem _ hother, hreach⟩
  · exact .inr hgrounded

/-- An id is settled when all of its dependencies are. -/
theorem settled_of_dependencies {found : Array BackEdge} {id : String}
    (h : ∀ target ∈ g.dependencies id, Settled g found target) : Settled g found id := by
  by_cases hreach : ∃ target ∈ g.dependencies id, ∃ edge ∈ found, g.Reaches target edge.source
  · obtain ⟨target, htarget, edge, hedge, hpath⟩ := hreach
    exact .inl ⟨edge, hedge, .head htarget hpath⟩
  · refine .inr ((g.grounded_iff id).2 fun target htarget => ?_)
    rcases h target htarget with hfound | hgrounded
    · exact absurd ⟨target, htarget, hfound⟩ hreach
    · exact hgrounded

/-- A dependency that a frame has looked at has been visited and lies neither at nor below it. -/
def Looked (g : DependencyGraph) (visited : Std.HashSet String) : List Frame → Prop
  | [] => True
  | frame :: below =>
    (∀ target ∈ g.dependencies frame.id,
      target ∈ frame.pending ∨ target ∈ visited ∧ target ∉ (frame :: below).map Frame.id) ∧
    Looked g visited below

theorem Looked.insert {visited : Std.HashSet String} {stack : List Frame}
    (h : Looked g visited stack) (id : String) : Looked g (visited.insert id) stack := by
  induction stack with
  | nil => trivial
  | cons frame below ih =>
    refine ⟨fun target htarget => ?_, ih h.2⟩
    rcases h.1 target htarget with hpending | ⟨hvisited, hoff⟩
    · exact .inl hpending
    · exact .inr ⟨Std.HashSet.mem_insert.2 (.inr hvisited), hoff⟩

/-- The invariant of the search: whatever has been visited and is not on the path is settled. -/
structure Settling (g : DependencyGraph) (s : Search) : Prop where
  valid : Valid g s
  closing : ∀ edge ∈ s.found, Closing g edge
  looked : Looked g s.visited s.stack
  settled : ∀ {id}, id ∈ s.visited → id ∉ s.path → Settled g s.found id

theorem settling_start (g : DependencyGraph) : Settling g start where
  valid := valid_start g
  closing := by simp [start]
  looked := trivial
  settled := by simp [start]

theorem Settling.looked_advance {visited onPath : Std.HashSet String} {id next : String}
    {pending : List String} {below : List Frame} {found : Array BackEdge}
    (h : Settling g ⟨visited, onPath, ⟨id, next :: pending⟩ :: below, found⟩)
    {seen : Std.HashSet String} (hseen : ∀ other ∈ visited, other ∈ seen) (hnext : next ∈ seen)
    (hpath : next ∉ onPath) (hbelow : Looked g seen below) :
    Looked g seen (⟨id, pending⟩ :: below) := by
  refine ⟨fun target htarget => ?_, hbelow⟩
  rcases h.looked.1 target htarget with hpending | ⟨hvisited, hoff⟩
  · rcases List.mem_cons.1 hpending with rfl | hpending
    · exact .inr ⟨hnext, fun hmem => hpath (h.valid.onPath_iff.2 hmem)⟩
    · exact .inl hpending
  · exact .inr ⟨hseen target hvisited, hoff⟩

theorem Settling.step (h : Settling g s) (hstep : Step g s t) : Settling g t := by
  refine ⟨h.valid.step hstep, h.valid.closing_step h.closing hstep, ?_, ?_⟩
  · cases hstep with
    | leave => exact h.looked.2
    | report hpath => trivial
    | pass hpath hvisited =>
      exact h.looked_advance (fun _ hother => hother) hvisited hpath h.looked.2
    | @descend visited onPath id next pending below found hpath hvisited =>
      refine ⟨fun target htarget => .inl htarget, ?_⟩
      exact h.looked_advance (fun _ hother => Std.HashSet.mem_insert.2 (.inr hother))
        Std.HashSet.mem_insert_self hpath (h.looked.2.insert next)
  · intro id hid hoff
    cases hstep with
    | @leave visited onPath own below found =>
      by_cases heq : id = own
      · -- all dependencies have been looked at, so they are off the path and settled
        subst heq
        refine settled_of_dependencies fun target htarget => ?_
        rcases h.looked.1 target htarget with hpending | ⟨hvisited, htarget⟩
        · cases hpending
        · exact h.settled hvisited htarget
      · exact h.settled hid fun hmem => (List.mem_cons.1 hmem).elim heq hoff
    | @report visited onPath own next pending below found hpath =>
      by_cases hmem : id ∈ own :: below.map Frame.id
      · exact .inl ⟨⟨own, next⟩, Array.mem_push_self, h.valid.reaches_last id hmem⟩
      · exact (h.settled hid hmem).push _
    | pass hpath hvisited => exact h.settled hid hoff
    | @descend visited onPath own next pending below found hpath hvisited =>
      have hne : id ≠ next := fun heq => hoff (heq ▸ List.mem_cons_self)
      have hold : id ∈ visited := by
        rcases Std.HashSet.mem_insert.1 hid with heq | hold
        · exact absurd (beq_iff_eq.1 heq).symm hne
        · exact hold
      exact h.settled hold fun hmem => hoff (List.mem_cons_of_mem _ hmem)

/-- A new root is put on the empty stack. -/
theorem Settling.enter (h : Settling g s) (hstack : s.stack = []) {root : String}
    (hnew : root ∉ s.visited) : Settling g (s.enter g root) := by
  obtain ⟨visited, onPath, stack, found⟩ := s
  subst hstack
  refine ⟨h.valid.enter hnew (by simp), h.closing, ⟨fun target htarget => .inl htarget, trivial⟩,
    ?_⟩
  intro id hid hoff
  rcases Std.HashSet.mem_insert.1 hid with heq | hold
  · exact absurd (beq_iff_eq.1 heq ▸ List.mem_cons_self) hoff
  · exact h.settled hold List.not_mem_nil

theorem visited_mono_step (hstep : Step g s t) : ∀ id ∈ s.visited, id ∈ t.visited := by
  cases hstep with
  | leave => exact fun _ h => h
  | report => exact fun _ h => h
  | pass => exact fun _ h => h
  | descend => exact fun _ h => Std.HashSet.mem_insert.2 (.inr h)

/-- The search from a root ends with an empty stack and has visited the root. -/
theorem Settling.explore (hg : g.WellFormed) (h : Settling g s) (hstack : s.stack = [])
    {root : String} (hroot : root ∈ g.nodes) :
    Settling g (s.explore g g.stepLimit root) ∧ (s.explore g g.stepLimit root).stack = [] ∧
      root ∈ (s.explore g g.stepLimit root).visited ∧
      ∀ id ∈ s.visited, id ∈ (s.explore g g.stepLimit root).visited := by
  by_cases hvisited : root ∈ s.visited
  · rw [explore_of_mem hvisited]
    exact ⟨h, hstack, hvisited, fun _ hid => hid⟩
  · rw [explore_of_notMem hvisited]
    have hentered := h.enter hstack hvisited
    have hroom : remaining g (s.enter g root) ≤ g.stepLimit := by
      rw [remaining_enter (mem_allIds_of_node hroot) hvisited]
      exact remaining_le_stepLimit hg hstack
    have hkept : ∀ id ∈ (s.enter g root).visited,
        id ∈ (run g g.stepLimit (s.enter g root)).visited :=
      run_induction (P := fun t => ∀ id ∈ (s.enter g root).visited, id ∈ t.visited)
        (fun hsofar hstep id hid => visited_mono_step hstep id (hsofar id hid))
        (fun _ hid => hid) g.stepLimit
    refine ⟨run_induction Settling.step hentered _, hentered.valid.run_stack_eq_nil hg hroom,
      hkept root Std.HashSet.mem_insert_self, fun id hid => hkept id ?_⟩
    exact Std.HashSet.mem_insert.2 (.inr hid)

/-- After a search from every root of a list all of them have been visited. -/
theorem Settling.explore_all (hg : g.WellFormed) (roots : List String)
    (hroots : ∀ root ∈ roots, root ∈ g.nodes) (h : Settling g s) (hstack : s.stack = []) :
    Settling g (roots.foldl (Search.explore g g.stepLimit) s) ∧
      (roots.foldl (Search.explore g g.stepLimit) s).stack = [] ∧
      (∀ root ∈ roots, root ∈ (roots.foldl (Search.explore g g.stepLimit) s).visited) ∧
      ∀ id ∈ s.visited, id ∈ (roots.foldl (Search.explore g g.stepLimit) s).visited := by
  induction roots generalizing s with
  | nil => exact ⟨h, hstack, by simp, fun _ hid => hid⟩
  | cons root roots ih =>
    obtain ⟨hroot, hrest⟩ := List.forall_mem_cons.1 hroots
    obtain ⟨hsettling, hempty, hvisited, hkept⟩ := h.explore hg hstack hroot
    obtain ⟨hend, hstackEnd, hroots, hkeptEnd⟩ := ih hrest hsettling hempty
    rw [List.foldl_cons]
    refine ⟨hend, hstackEnd, ?_, fun id hid => hkeptEnd id (hkept id hid)⟩
    exact List.forall_mem_cons.2 ⟨hkeptEnd root hvisited, hroots⟩

end Search

namespace DependencyGraph

variable {g : DependencyGraph}

theorem backEdges_eq (g : DependencyGraph) :
    g.backEdges =
      (g.nodes.toList.foldl (Search.explore g g.stepLimit) .start).found.toList := by
  rw [Array.foldl_toList]
  rfl

theorem WellFormed.search_spec (hg : g.WellFormed) :
    (∀ edge ∈ g.backEdges, Search.Closing g edge) ∧
      ∀ id ∈ g.nodes, Search.Settled g g.backEdges.toArray id := by
  obtain ⟨h, hstack, hvisited, _⟩ := (Search.settling_start g).explore_all hg g.nodes.toList
    (fun _ hroot => Array.mem_toList_iff.1 hroot) rfl
  rw [backEdges_eq]
  refine ⟨fun edge hedge => h.closing edge (Array.mem_toList_iff.1 hedge), fun id hid => ?_⟩
  refine h.settled (hvisited id (Array.mem_toList_iff.2 hid)) ?_
  rw [Search.path, hstack]
  exact List.not_mem_nil

/-- A reported edge is a dependency that closes a cycle. -/
theorem WellFormed.closing_of_mem_backEdges (hg : g.WellFormed) {edge : BackEdge}
    (h : edge ∈ g.backEdges) :
    edge.target ∈ g.dependencies edge.source ∧ g.Reaches edge.target edge.source :=
  hg.search_spec.1 edge h

/-- From a declared id dependencies lead to the source of a reported edge, unless no path from it
goes on for ever. -/
theorem WellFormed.exists_backEdge_or_grounded (hg : g.WellFormed) {id : String}
    (h : id ∈ g.nodes) : (∃ edge ∈ g.backEdges, g.Reaches id edge.source) ∨ g.Grounded id := by
  have hsettled := hg.search_spec.2 id h
  simpa [Search.Settled] using hsettled

/-- From an id on a cycle dependencies lead to the source of a reported edge. -/
theorem WellFormed.exists_backEdge_of_cycle (hg : g.WellFormed) {id : String}
    (h : g.Precedes id id) : ∃ edge ∈ g.backEdges, g.Reaches id edge.source := by
  obtain ⟨target, hstep, _⟩ := Relation.TransGen.head'_iff.1 h
  rcases hg.exists_backEdge_or_grounded (hg.declared hstep) with hedge | hgrounded
  · exact hedge
  · exact absurd h hgrounded.not_precedes_self

/-- Nothing is reported exactly if there is no cycle. -/
theorem WellFormed.backEdges_eq_nil_iff (hg : g.WellFormed) : g.backEdges = [] ↔ g.Acyclic := by
  constructor
  · intro hnil id hcycle
    obtain ⟨edge, hedge, _⟩ := hg.exists_backEdge_of_cycle hcycle
    rw [hnil] at hedge
    cases hedge
  · intro hacyclic
    rw [List.eq_nil_iff_forall_not_mem]
    intro edge hedge
    obtain ⟨hstep, hback⟩ := hg.closing_of_mem_backEdges hedge
    exact hacyclic edge.source (.head' hstep hback)

/-- An id is grounded exactly if it leads to no cycle. -/
theorem WellFormed.grounded_iff_no_cycle (hg : g.WellFormed) {id : String} :
    g.Grounded id ↔ ∀ node, g.Reaches id node → ¬ g.Precedes node node := by
  constructor
  · intro hgrounded node hpath
    exact (hgrounded.of_reaches hpath).not_precedes_self
  · intro hnone
    refine (g.grounded_iff id).2 fun target htarget => ?_
    have hid := hg.declared htarget
    rcases hg.exists_backEdge_or_grounded hid with ⟨edge, hedge, hpath⟩ | hgrounded
    · obtain ⟨hstep, hback⟩ := hg.closing_of_mem_backEdges hedge
      exact absurd (.head' hstep hback) (hnone edge.source hpath)
    · exact (g.grounded_iff id).1 hgrounded target htarget

/-- Without a cycle every path along dependencies ends. -/
theorem WellFormed.acyclic_iff_grounded (hg : g.WellFormed) :
    g.Acyclic ↔ ∀ id, g.Grounded id :=
  ⟨fun hacyclic _ => hg.grounded_iff_no_cycle.2 fun node _ => hacyclic node,
    fun hgrounded id => (hgrounded id).not_precedes_self⟩

end DependencyGraph

end PlanAudit
