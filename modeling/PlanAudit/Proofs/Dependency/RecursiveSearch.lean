import PlanAudit.Proofs.Dependency.CycleSearch

/-! A search for circular dependencies by recursion. The search on a stack of its own reports the
same edges in the same order. -/
namespace PlanAudit

/-- What a visit comes back with: the ids that have been visited by then, among them those that were
visited before, and the edge at which the search has stopped. -/
structure Visit (visited : Std.HashSet String) where
  reached : Std.HashSet String
  edge : Option BackEdge
  reached_of_visited : ∀ {id}, id ∈ visited → id ∈ reached

namespace DependencyGraph

def mentioned (g : DependencyGraph) : Finset String :=
  (g.edges.toList.flatMap Prod.snd).toFinset

theorem mem_mentioned {g : DependencyGraph} {id target : String}
    (h : target ∈ g.dependencies id) : target ∈ g.mentioned := by
  rw [dependencies, Std.HashMap.getD_eq_getD_getElem?] at h
  cases hid : g.edges[id]? with
  | none => simp [hid] at h
  | some targets =>
    have hentry : (id, targets) ∈ g.edges.toList :=
      Std.HashMap.mem_toList_iff_getElem?_eq_some.2 hid
    rw [hid] at h
    exact List.mem_toFinset.2 (List.mem_flatMap.2 ⟨_, hentry, h⟩)

def ahead (g : DependencyGraph) (pending : List String) (visited : Std.HashSet String) :
    Finset String :=
  {id ∈ g.mentioned ∪ pending.toFinset | id ∉ visited}

section Ahead

variable {g : DependencyGraph} {rest pending : List String} {visited reached : Std.HashSet String}
  (hrest : ∀ id ∈ rest, id ∈ g.mentioned ∨ id ∈ pending)
  (hvisited : ∀ {id}, id ∈ visited → id ∈ reached)

include hrest hvisited

theorem ahead_subset : g.ahead rest reached ⊆ g.ahead pending visited := by
  intro id hid
  simp only [ahead, Finset.mem_filter, Finset.mem_union, List.mem_toFinset] at hid ⊢
  exact ⟨hid.1.elim .inl (hrest id), fun h => hid.2 (hvisited h)⟩

/-- An id is no longer ahead once it has been visited. -/
theorem card_ahead_lt {next : String} (hnext : next ∈ pending) (hnew : next ∉ visited)
    (hreached : next ∈ reached) :
    (g.ahead rest reached).card < (g.ahead pending visited).card := by
  apply Finset.card_lt_card
  rw [Finset.ssubset_iff_of_subset (ahead_subset hrest hvisited)]
  refine ⟨next, ?_, ?_⟩
  · simp [ahead, hnext, hnew]
  · simp [ahead, hreached]

end Ahead

/-- Look at the pending dependencies of an id in their order. A dependency that has not been visited
is visited first, with all its own dependencies. One that is the id itself or stands above it closes
a cycle, and with this edge the search stops. -/
def visit (g : DependencyGraph) (above : List String) (id : String) (pending : List String)
    (visited : Std.HashSet String) : Visit visited :=
  match pending with
  | [] => ⟨visited, none, fun h => h⟩
  | next :: pending =>
    if next ∉ visited then
      let inner := g.visit (id :: above) next (g.dependencies next) (visited.insert next)
      have hinner {other : String} (h : other ∈ visited) : other ∈ inner.reached :=
        inner.reached_of_visited (Std.HashSet.mem_insert.2 (.inr h))
      match inner.edge with
      | some edge => ⟨inner.reached, some edge, hinner⟩
      | none =>
        let outer := g.visit above id pending inner.reached
        ⟨outer.reached, outer.edge, fun h => outer.reached_of_visited (hinner h)⟩
    else if next ∈ id :: above then ⟨visited, some ⟨id, next⟩, fun h => h⟩
    else g.visit above id pending visited
termination_by ((g.ahead pending visited).card, pending.length)
decreasing_by
  · exact .left _ _ (card_ahead_lt (fun _ h => .inl (mem_mentioned h))
      (fun h => Std.HashSet.mem_insert.2 (.inr h)) List.mem_cons_self ‹next ∉ visited›
      Std.HashSet.mem_insert_self)
  · exact .left _ _ (card_ahead_lt (fun _ h => .inr (List.mem_cons_of_mem _ h)) hinner
      List.mem_cons_self ‹next ∉ visited› (inner.reached_of_visited Std.HashSet.mem_insert_self))
  · exact .right' _ (Finset.card_le_card (ahead_subset (fun _ h => .inr (List.mem_cons_of_mem _ h))
      fun h => h)) (Nat.lt_succ_self _)

def visitRoots (g : DependencyGraph) :
    (roots : List String) → (visited : Std.HashSet String) → List BackEdge
  | [], _ => []
  | root :: roots, visited =>
    if root ∈ visited then g.visitRoots roots visited
    else
      let outcome := g.visit [] root (g.dependencies root) (visited.insert root)
      outcome.edge.toList ++ g.visitRoots roots outcome.reached

def recursiveBackEdges (g : DependencyGraph) : List BackEdge :=
  g.visitRoots g.nodes.toList ∅

end DependencyGraph

namespace Search

open DependencyGraph

variable {g : DependencyGraph} {s : Search}

/-- Two runs that both come to the end come to the same one. -/
theorem run_eq_of_stack_eq_nil {first second : Nat} (hfirst : (run g first s).stack = [])
    (hsecond : (run g second s).stack = []) : run g first s = run g second s := by
  rcases Nat.le_total first second with hle | hle
  · obtain ⟨rest, rfl⟩ := Nat.exists_eq_add_of_le hle
    rw [run_add, run_of_stack_eq_nil hfirst]
  · obtain ⟨rest, rfl⟩ := Nat.exists_eq_add_of_le hle
    rw [run_add, run_of_stack_eq_nil hsecond]

/-- A run comes to a state that shows the outcome of a visit. If there is an edge, it has been
reported and the stack is empty. Otherwise nothing has been reported and the frame of the visited id
has gone. -/
def ComesTo (g : DependencyGraph) (s : Search) (reached : Std.HashSet String)
    (edge : Option BackEdge) (below : List Frame) : Prop :=
  ∃ steps, (run g steps s).visited = reached ∧
    (run g steps s).stack = edge.elim below (fun _ => []) ∧
    (run g steps s).found = edge.elim s.found s.found.push

theorem ComesTo.of_run {reached : Std.HashSet String} {edge : Option BackEdge} {below : List Frame}
    {steps : Nat} (h : ComesTo g (run g steps s) reached edge below)
    (hfound : (run g steps s).found = s.found) : ComesTo g s reached edge below := by
  obtain ⟨more, hvisited, hstack, hedges⟩ := h
  rw [hfound] at hedges
  refine ⟨steps + more, ?_⟩
  rw [run_add]
  exact ⟨hvisited, hstack, hedges⟩

section Look

variable {visited onPath reached : Std.HashSet String} {id next : String} {pending : List String}
  {below : List Frame} {found : Array BackEdge} {edge : Option BackEdge}

theorem comesTo_leave :
    ComesTo g ⟨visited, onPath, ⟨id, []⟩ :: below, found⟩ visited none below :=
  ⟨1, rfl, rfl, rfl⟩

variable (h : Valid g ⟨visited, onPath, ⟨id, next :: pending⟩ :: below, found⟩)

include h

theorem comesTo_report (hpath : next ∈ id :: below.map Frame.id) :
    ComesTo g ⟨visited, onPath, ⟨id, next :: pending⟩ :: below, found⟩ visited (some ⟨id, next⟩)
      below := by
  have honPath : next ∈ onPath := h.onPath_iff.2 hpath
  have hrun : run g 1 ⟨visited, onPath, ⟨id, next :: pending⟩ :: below, found⟩ =
      ⟨visited, ∅, [], found.push ⟨id, next⟩⟩ := by
    simp [run, step, honPath]
  refine ⟨1, ?_⟩
  rw [hrun]
  exact ⟨rfl, rfl, rfl⟩

/-- A dependency that is known and lies off the path is passed over. -/
theorem ComesTo.pass (hpath : next ∉ id :: below.map Frame.id) (hvisited : next ∈ visited)
    (hrest : ComesTo g ⟨visited, onPath, ⟨id, pending⟩ :: below, found⟩ reached edge below) :
    ComesTo g ⟨visited, onPath, ⟨id, next :: pending⟩ :: below, found⟩ reached edge below := by
  have honPath : next ∉ onPath := fun hmem => hpath (h.onPath_iff.1 hmem)
  have hrun : run g 1 ⟨visited, onPath, ⟨id, next :: pending⟩ :: below, found⟩ =
      ⟨visited, onPath, ⟨id, pending⟩ :: below, found⟩ := by
    simp [run, step, honPath, hvisited]
  rw [← hrun] at hrest
  apply hrest.of_run
  rw [hrun]

/-- For a new dependency a frame is put on the stack. -/
theorem ComesTo.descend (hnew : next ∉ visited)
    (hinner : ∀ onPath, Valid g ⟨visited.insert next, onPath,
        ⟨next, g.dependencies next⟩ :: ⟨id, pending⟩ :: below, found⟩ →
      ComesTo g ⟨visited.insert next, onPath,
        ⟨next, g.dependencies next⟩ :: ⟨id, pending⟩ :: below, found⟩ reached edge
        (⟨id, pending⟩ :: below)) :
    ComesTo g ⟨visited, onPath, ⟨id, next :: pending⟩ :: below, found⟩ reached edge
      (⟨id, pending⟩ :: below) := by
  have honPath : next ∉ onPath := fun hmem => hnew (h.visited_of_path (h.onPath_iff.1 hmem))
  have hrun : run g 1 ⟨visited, onPath, ⟨id, next :: pending⟩ :: below, found⟩ =
      ⟨visited.insert next, onPath.insert next,
        ⟨next, g.dependencies next⟩ :: ⟨id, pending⟩ :: below, found⟩ := by
    simp [run, step, enter, honPath, hnew]
  have hvalid := run_induction Valid.step h 1
  rw [hrun] at hvalid
  have hcomes := hinner _ hvalid
  rw [← hrun] at hcomes
  apply hcomes.of_run
  rw [hrun]

/-- If a dependency is visited without coming to an edge, the frame below goes on. -/
theorem ComesTo.resume {after : Std.HashSet String}
    (hinner : ComesTo g ⟨visited, onPath, ⟨id, next :: pending⟩ :: below, found⟩ after none
      (⟨id, pending⟩ :: below))
    (hrest : ∀ onPath, Valid g ⟨after, onPath, ⟨id, pending⟩ :: below, found⟩ →
      ComesTo g ⟨after, onPath, ⟨id, pending⟩ :: below, found⟩ reached edge below) :
    ComesTo g ⟨visited, onPath, ⟨id, next :: pending⟩ :: below, found⟩ reached edge below := by
  obtain ⟨steps, hvisited, hstack, hfound⟩ := hinner
  have hvalid := run_induction Valid.step h steps
  have hrun : run g steps ⟨visited, onPath, ⟨id, next :: pending⟩ :: below, found⟩ =
      ⟨after, (run g steps ⟨visited, onPath, ⟨id, next :: pending⟩ :: below, found⟩).onPath,
        ⟨id, pending⟩ :: below, found⟩ := by
    rw [Search.mk.injEq]
    exact ⟨hvisited, rfl, hstack, hfound⟩
  rw [hrun] at hvalid
  have hcomes := hrest _ hvalid
  rw [← hrun] at hcomes
  exact hcomes.of_run hfound

end Look

/-- A frame is run as its id is visited. While the id is visited, the frames below its own stay as
they are, so the induction follows the recursion with the rest of the stack generalised. -/
theorem comesTo_visit (above : List String) (id : String) (pending : List String)
    (visited onPath : Std.HashSet String) (below : List Frame) (found : Array BackEdge)
    (habove : below.map Frame.id = above)
    (h : Valid g ⟨visited, onPath, ⟨id, pending⟩ :: below, found⟩) :
    ComesTo g ⟨visited, onPath, ⟨id, pending⟩ :: below, found⟩
      (g.visit above id pending visited).reached (g.visit above id pending visited).edge below := by
  fun_induction visit g above id pending visited generalizing onPath below found with
  | case1 above id visited => exact comesTo_leave
  | case2 above id visited next pending hnew inner hinner edge hedge ih =>
    subst habove
    have hcomes : ComesTo g _ inner.reached inner.edge (⟨id, pending⟩ :: below) :=
      .descend h hnew fun onPath hvalid => ih onPath (⟨id, pending⟩ :: below) found rfl hvalid
    -- with an edge the whole stack has gone
    rw [hedge] at hcomes
    exact hcomes
  | case3 above id visited next pending hnew inner hinner hedge outer ihInner ihOuter =>
    subst habove
    have hcomes : ComesTo g _ inner.reached inner.edge (⟨id, pending⟩ :: below) :=
      .descend h hnew fun onPath hvalid => ihInner onPath (⟨id, pending⟩ :: below) found rfl hvalid
    rw [hedge] at hcomes
    exact hcomes.resume h fun onPath hvalid => ihOuter onPath below found rfl hvalid
  | case4 above id visited next pending hvisited hpath =>
    subst habove
    exact comesTo_report h hpath
  | case5 above id visited next pending hvisited hpath ih =>
    subst habove
    exact .pass h hpath (not_not.1 hvisited) (ih onPath below found rfl h.advance)

/-- The search from a root visits the root, and reports the edge to which that comes. -/
theorem Settling.explore_eq_visit (hg : g.WellFormed) (h : Settling g s) (hstack : s.stack = [])
    {root : String} (hroot : root ∈ g.nodes) (hnew : root ∉ s.visited) :
    (s.explore g g.stepLimit root).visited =
        (g.visit [] root (g.dependencies root) (s.visited.insert root)).reached ∧
      (s.explore g g.stepLimit root).found.toList = s.found.toList ++
        (g.visit [] root (g.dependencies root) (s.visited.insert root)).edge.toList := by
  obtain ⟨_, hend, _⟩ := h.explore hg hstack hroot
  have hvalid := (h.enter hstack hnew).valid
  rw [explore_of_notMem hnew] at hend ⊢
  obtain ⟨visited, onPath, stack, found⟩ := s
  subst hstack
  obtain ⟨steps, hreached, hempty, hfound⟩ :=
    comesTo_visit [] root (g.dependencies root) _ _ [] found rfl hvalid
  have hdone : (run g steps (Search.enter g root ⟨visited, onPath, [], found⟩)).stack = [] := by
    rw [Search.enter, hempty]
    cases (g.visit [] root (g.dependencies root) (visited.insert root)).edge <;> rfl
  rw [run_eq_of_stack_eq_nil hend hdone, Search.enter, hreached, hfound]
  refine ⟨rfl, ?_⟩
  cases (g.visit [] root (g.dependencies root) (visited.insert root)).edge <;> simp

/-- Every root in turn, with what has been visited before. -/
theorem Settling.found_explore_all (hg : g.WellFormed) (roots : List String)
    (hroots : ∀ root ∈ roots, root ∈ g.nodes) (h : Settling g s) (hstack : s.stack = []) :
    (roots.foldl (Search.explore g g.stepLimit) s).found.toList =
      s.found.toList ++ g.visitRoots roots s.visited := by
  induction roots generalizing s with
  | nil => simp [visitRoots]
  | cons root roots ih =>
    obtain ⟨hroot, hrest⟩ := List.forall_mem_cons.1 hroots
    obtain ⟨hsettling, hempty, _⟩ := h.explore hg hstack hroot
    rw [List.foldl_cons, ih hrest hsettling hempty, visitRoots]
    split_ifs with hvisited
    · rw [explore_of_mem hvisited]
    · obtain ⟨hreached, hfound⟩ := h.explore_eq_visit hg hstack hroot hvisited
      rw [hreached, hfound, List.append_assoc]

end Search

open DependencyGraph

/-- The search on a stack of its own reports the edges that the search by recursion finds, in the
same order. -/
theorem backEdges_eq_recursiveBackEdges (tasks : List Task) :
    (ofTasks tasks).backEdges = (ofTasks tasks).recursiveBackEdges := by
  rw [backEdges_eq, recursiveBackEdges, (Search.settling_start _).found_explore_all
    (wellFormed_ofTasks tasks) _ (fun _ hroot => Array.mem_toList_iff.1 hroot) rfl]
  rfl

end PlanAudit
