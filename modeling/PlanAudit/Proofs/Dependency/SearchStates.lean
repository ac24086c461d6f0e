import PlanAudit.Proofs.Dependency.ReportedEdges

/-! The states of the search with a cursor into every dependency list: the stack is a path from the
current root, and what lies on the path, what has been visited and where the cursors stand agree with it.
Without its cursors such a state is a state of the search on pending dependencies. -/
namespace PlanAudit

namespace Search

open DependencyGraph

variable {g : DependencyGraph} {s t : Search} {root : String}

def Rooted (root : String) (s : Search) : Prop :=
  ∀ id ∈ s.path.getLast?, id = root

theorem rooted_of_stack_eq_nil (h : s.stack = []) : Rooted root s := by
  intro id hid
  rw [path, h] at hid
  cases hid

theorem rooted_enter (h : s.stack = []) : Rooted root (s.enter g root) := by
  have hpath : (s.enter g root).path = root :: s.stack.map Frame.id := rfl
  intro id hid
  rw [hpath, h] at hid
  exact (Option.mem_some.1 hid).symm

theorem Rooted.step (h : Rooted root s) (hstep : Step g s t) : Rooted root t := by
  cases hstep with
  | @leave visited onPath id below found =>
    intro other hother
    have hbelow : (below.map Frame.id).getLast? = some other := hother
    have hlast : (id :: below.map Frame.id).getLast? = some other := by
      rw [List.getLast?_cons, hbelow, Option.getD_some]
    exact h other hlast
  | report => exact rooted_of_stack_eq_nil rfl
  | pass => exact h
  | @descend visited onPath id next pending below found =>
    intro other hother
    have hlast : (next :: id :: below.map Frame.id).getLast? = some other := hother
    rw [List.getLast?_cons_cons] at hlast
    exact h other hlast

theorem rooted_explore (hstack : s.stack = []) (root : String) (steps : Nat) :
    Rooted root (s.explore g steps root) := by
  by_cases hvisited : root ∈ s.visited
  · rw [explore_of_mem hvisited]
    exact rooted_of_stack_eq_nil hstack
  · rw [explore_of_notMem hvisited]
    exact run_induction Rooted.step (rooted_enter hstack) steps

theorem Valid.explore (h : Valid g s) (hstack : s.stack = []) (root : String) (steps : Nat) :
    Valid g (s.explore g steps root) := by
  by_cases hvisited : root ∈ s.visited
  · rw [explore_of_mem hvisited]
    exact h
  · rw [explore_of_notMem hvisited]
    exact run_induction Valid.step (h.enter hvisited (by simp [hstack])) steps

theorem Valid.onPath_isEmpty (h : Valid g s) (hstack : s.stack = []) :
    s.onPath.isEmpty = true := by
  rw [Std.HashSet.isEmpty_iff_forall_not_mem]
  intro id hid
  have hpath := h.onPath_iff.1 hid
  rw [path, hstack] at hpath
  cases hpath

end Search

/-- An id on the current path, and how many of its dependencies have been looked at. -/
structure CursorFrame where
  id : String
  cursor : Nat
  deriving Repr, DecidableEq

/-- The state of a search that reads the dependency lists in place. -/
structure CursorSearch where
  visited : Std.HashSet String
  onPath : Std.HashSet String
  stack : List CursorFrame
  found : Array BackEdge

def CursorFrame.frame (g : DependencyGraph) (frame : CursorFrame) : Frame :=
  ⟨frame.id, (g.dependencies frame.id).drop frame.cursor⟩

namespace CursorSearch

open DependencyGraph

def start : CursorSearch :=
  ⟨∅, ∅, [], #[]⟩

def enter (id : String) : CursorSearch → CursorSearch
  | ⟨visited, onPath, stack, found⟩ =>
    ⟨visited.insert id, onPath.insert id, ⟨id, 0⟩ :: stack, found⟩

/-- The dependency at the cursor of the last frame is looked at, and the cursor moves on behind it. With
no dependency there the frame is left. -/
def step (g : DependencyGraph) : CursorSearch → CursorSearch
  | ⟨visited, onPath, [], found⟩ => ⟨visited, onPath, [], found⟩
  | ⟨visited, onPath, ⟨id, cursor⟩ :: below, found⟩ =>
    match (g.dependencies id)[cursor]? with
    | none => ⟨visited, onPath.erase id, below, found⟩
    | some next =>
      if onPath.contains next then ⟨visited, ∅, [], found.push ⟨id, next⟩⟩
      else if visited.contains next then ⟨visited, onPath, ⟨id, cursor + 1⟩ :: below, found⟩
      else enter next ⟨visited, onPath, ⟨id, cursor + 1⟩ :: below, found⟩

def run (g : DependencyGraph) : (limit : Nat) → CursorSearch → CursorSearch
  | 0, s => s
  | limit + 1, s => if s.stack.isEmpty then s else run g limit (s.step g)

def explore (g : DependencyGraph) (limit : Nat) (s : CursorSearch) (root : String) :
    CursorSearch :=
  if s.visited.contains root then s else run g limit (s.enter root)

def path (s : CursorSearch) : List String :=
  s.stack.map CursorFrame.id

/-- The same state with what is pending in the place of the cursors. -/
def search (g : DependencyGraph) (s : CursorSearch) : Search :=
  ⟨s.visited, s.onPath, s.stack.map (CursorFrame.frame g), s.found⟩

variable {g : DependencyGraph} {s : CursorSearch} {root : String}

theorem path_search (g : DependencyGraph) (s : CursorSearch) : (s.search g).path = s.path := by
  rw [search, Search.path, path, List.map_map]
  rfl

theorem search_start (g : DependencyGraph) : start.search g = .start := rfl

theorem search_enter (id : String) : (s.enter id).search g = (s.search g).enter g id := rfl

/-- The two searches go step by step together. -/
theorem search_step : (s.step g).search g = (s.search g).step g := by
  obtain ⟨visited, onPath, stack, found⟩ := s
  cases stack with
  | nil => rfl
  | cons frame below =>
    obtain ⟨id, cursor⟩ := frame
    cases hnext : (g.dependencies id)[cursor]? with
    | none =>
      have hdrop : (g.dependencies id).drop cursor = [] :=
        List.drop_eq_nil_of_le (List.getElem?_eq_none_iff.1 hnext)
      simp only [step, search, CursorFrame.frame, List.map_cons, hnext, hdrop, Search.step]
    | some next =>
      have hdrop : (g.dependencies id).drop cursor =
          next :: (g.dependencies id).drop (cursor + 1) := by
        obtain ⟨hcursor, hget⟩ := List.getElem?_eq_some_iff.1 hnext
        rw [List.drop_eq_getElem_cons hcursor, hget]
      simp only [step, search, CursorFrame.frame, List.map_cons, hnext, hdrop, Search.step]
      split_ifs <;> rfl

theorem search_run (limit : Nat) : (run g limit s).search g = Search.run g limit (s.search g) := by
  induction limit generalizing s with
  | zero => rfl
  | succ limit ih =>
    have hempty : (s.search g).stack.isEmpty = s.stack.isEmpty := List.isEmpty_map
    rw [run, Search.run, hempty]
    split_ifs
    · rfl
    · rw [ih, search_step]

theorem search_explore (limit : Nat) :
    (s.explore g limit root).search g = (s.search g).explore g limit root := by
  have hvisited : (s.search g).visited = s.visited := rfl
  rw [explore, Search.explore, hvisited]
  split_ifs
  · rfl
  · rw [search_run, search_enter]

theorem search_explore_all (limit : Nat) (roots : List String) :
    (roots.foldl (explore g limit) s).search g =
      roots.foldl (Search.explore g limit) (s.search g) := by
  induction roots generalizing s with
  | nil => rfl
  | cons root roots ih => rw [List.foldl_cons, List.foldl_cons, ih, search_explore]

def InBounds (g : DependencyGraph) (s : CursorSearch) : Prop :=
  ∀ frame ∈ s.stack, frame.cursor ≤ (g.dependencies frame.id).length

theorem inBounds_start (g : DependencyGraph) : InBounds g start :=
  List.forall_mem_nil _

theorem InBounds.enter (h : InBounds g s) (id : String) : InBounds g (s.enter id) := by
  intro frame hframe
  rcases List.mem_cons.1 hframe with rfl | hbelow
  · exact Nat.zero_le _
  · exact h frame hbelow

/-- A cursor moves only past a dependency that is there. -/
theorem InBounds.step (h : InBounds g s) : InBounds g (s.step g) := by
  obtain ⟨visited, onPath, stack, found⟩ := s
  cases stack with
  | nil => exact h
  | cons frame below =>
    obtain ⟨id, cursor⟩ := frame
    obtain ⟨-, hbelow⟩ := List.forall_mem_cons.1 h
    rw [CursorSearch.step]
    cases hnext : (g.dependencies id)[cursor]? with
    | none => exact hbelow
    | some next =>
      obtain ⟨hcursor, -⟩ := List.getElem?_eq_some_iff.1 hnext
      have hmoved : InBounds g ⟨visited, onPath, ⟨id, cursor + 1⟩ :: below, found⟩ :=
        List.forall_mem_cons.2 ⟨hcursor, hbelow⟩
      simp only
      split_ifs
      · exact List.forall_mem_nil _
      · exact hmoved
      · exact hmoved.enter next

theorem InBounds.run (h : InBounds g s) (limit : Nat) : InBounds g (run g limit s) := by
  induction limit generalizing s with
  | zero => exact h
  | succ limit ih =>
    rw [CursorSearch.run]
    split_ifs
    · exact h
    · exact ih h.step

theorem InBounds.explore (h : InBounds g s) (limit : Nat) (root : String) :
    InBounds g (s.explore g limit root) := by
  rw [CursorSearch.explore]
  split_ifs
  · exact h
  · exact (h.enter root).run limit

theorem InBounds.explore_all (h : InBounds g s) (limit : Nat) (roots : List String) :
    InBounds g (roots.foldl (CursorSearch.explore g limit) s) := by
  induction roots generalizing s with
  | nil => exact h
  | cons root roots ih => exact ih (h.explore limit root)

/-- The state of a search from a root: its stack is a path along dependencies that begins at the root
and repeats no id, and the cursor of each frame below another stands right behind the id of that one. -/
structure Tracks (g : DependencyGraph) (root : String) (s : CursorSearch) : Prop where
  path_nodup : s.path.Nodup
  from_root : ∀ id ∈ s.path.getLast?, id = root
  linked : s.stack.IsChain fun upper lower =>
    ∃ place, lower.cursor = place + 1 ∧ (g.dependencies lower.id)[place]? = some upper.id
  cursor_le : ∀ frame ∈ s.stack, frame.cursor ≤ (g.dependencies frame.id).length
  onPath_iff : ∀ id, id ∈ s.onPath ↔ id ∈ s.path
  visited : ∀ id ∈ s.onPath, id ∈ s.visited

theorem InBounds.tracks (h : InBounds g s) (hvalid : Search.Valid g (s.search g))
    (hroot : Search.Rooted root (s.search g)) : Tracks g root s where
  path_nodup := path_search g s ▸ hvalid.path_nodup
  from_root := path_search g s ▸ hroot
  linked := by
    have hlinked : s.stack.IsChain fun upper lower => ∃ looked,
        g.dependencies lower.id = looked ++ upper.id :: (lower.frame g).pending :=
      (List.isChain_map _).1 hvalid.linked
    refine hlinked.imp_of_mem_imp fun upper lower _ hmem hread => ?_
    obtain ⟨looked, hlooked⟩ := hread
    -- what is pending is as long as the cursor says, because the cursor is not behind the end
    have hcursor : lower.cursor = looked.length + 1 := by
      have hlength := congrArg List.length hlooked
      rw [List.length_append, List.length_cons, CursorFrame.frame, List.length_drop] at hlength
      have hle := h lower hmem
      omega
    refine ⟨looked.length, hcursor, ?_⟩
    rw [hlooked, List.getElem?_append_right (Nat.le_refl _), Nat.sub_self, List.getElem?_cons_zero]
  cursor_le := h
  onPath_iff := fun _ => path_search g s ▸ hvalid.onPath_iff
  visited := fun _ hid => hvalid.visited_of_path (hvalid.onPath_iff.1 hid)

private theorem run_succ (limit : Nat) : run g (limit + 1) s = (run g limit s).step g := by
  induction limit generalizing s with
  | zero =>
    obtain ⟨visited, onPath, stack, found⟩ := s
    cases stack with
    | nil => rfl
    | cons frame below => rfl
  | succ limit ih =>
    rw [run, ih, run]
    split_ifs with hempty
    · obtain ⟨visited, onPath, stack, found⟩ := s
      cases List.isEmpty_iff.1 hempty
      rfl
    · rfl

/-- The states of a search from a root follow each other by steps. -/
theorem explore_succ (hstack : s.stack = []) (root : String) (steps : Nat) :
    s.explore g (steps + 1) root = (s.explore g steps root).step g := by
  rw [explore, explore]
  split_ifs
  · obtain ⟨visited, onPath, stack, found⟩ := s
    cases hstack
    rfl
  · exact run_succ steps

end CursorSearch

namespace DependencyGraph

def cursorsAt (g : DependencyGraph) (done : List String) (root : String) (steps : Nat) :
    CursorSearch :=
  (done.foldl (CursorSearch.explore g g.stepLimit) .start).explore g steps root

theorem search_cursorsAt (g : DependencyGraph) (done : List String) (root : String) (steps : Nat) :
    (g.cursorsAt done root steps).search g = g.searchAt done root steps := by
  rw [cursorsAt, CursorSearch.search_explore, CursorSearch.search_explore_all,
    CursorSearch.search_start, searchAt]

/-- Reading the dependency lists in place finds the edges that are reported. -/
theorem found_cursors (g : DependencyGraph) :
    (g.nodes.toList.foldl (CursorSearch.explore g g.stepLimit) .start).found.toList =
      g.backEdges := by
  rw [backEdges_eq, ← CursorSearch.search_start g, ← CursorSearch.search_explore_all]
  rfl

end DependencyGraph

open DependencyGraph

/-- Whenever the search takes up a root, the stack and the path are empty. After every step from there on
the cursors agree with the path, and the search on pending dependencies is in the same state. -/
theorem search_keeps_track_of_path (tasks : List Task) {done rest : List String} {root : String}
    (h : (ofTasks tasks).nodes.toList = done ++ root :: rest) :
    let g := ofTasks tasks
    let before := done.foldl (CursorSearch.explore g g.stepLimit) .start
    before.stack = [] ∧ before.onPath.isEmpty = true ∧
      (∀ steps, CursorSearch.Tracks g root (g.cursorsAt done root steps) ∧
        g.cursorsAt done root (steps + 1) = (g.cursorsAt done root steps).step g ∧
        (g.cursorsAt done root steps).search g = g.searchAt done root steps) ∧
      (g.nodes.toList.foldl (CursorSearch.explore g g.stepLimit) .start).found.toList =
        g.backEdges := by
  intro g before
  have hdone : ∀ id ∈ done, id ∈ g.nodes := by
    intro id hid
    apply Array.mem_toList_iff.1
    rw [h]
    exact List.mem_append_left _ hid
  have hsearch : before.search g = done.foldl (Search.explore g g.stepLimit) .start :=
    CursorSearch.search_explore_all g.stepLimit done
  obtain ⟨hsettling, hempty, _⟩ :=
    (Search.settling_start g).explore_all (wellFormed_ofTasks tasks) done hdone rfl
  have hvalid : Search.Valid g (before.search g) := hsearch ▸ hsettling.valid
  have hstack : (before.search g).stack = [] := hsearch ▸ hempty
  have hbefore : before.stack = [] := List.map_eq_nil_iff.1 hstack
  have hbounds : CursorSearch.InBounds g before :=
    (CursorSearch.inBounds_start g).explore_all g.stepLimit done
  refine ⟨hbefore, hvalid.onPath_isEmpty hstack, fun steps => ⟨?_, ?_, ?_⟩, ?_⟩
  · apply (hbounds.explore steps root).tracks
    · rw [CursorSearch.search_explore]
      exact hvalid.explore hstack root steps
    · rw [CursorSearch.search_explore]
      exact Search.rooted_explore hstack root steps
  · exact CursorSearch.explore_succ hbefore root steps
  · exact search_cursorsAt g done root steps
  · exact found_cursors g

/-- The first step goes down from the first task to the second one. The second step finds the dependency
of that one on itself and drops the path, before the second task is taken up as a root. -/
theorem path_tracked_and_dropped :
    let g := ofTasks (twoTasks ["B"] ["B", "A"])
    let later := ["A"].foldl (CursorSearch.explore g g.stepLimit) .start
    g.nodes.toList = [] ++ "A" :: ["B"] ∧ g.nodes.toList = ["A"] ++ "B" :: [] ∧
      (g.cursorsAt [] "A" 1).stack = [⟨"B", 0⟩, ⟨"A", 1⟩] ∧
      CursorSearch.Tracks g "A" (g.cursorsAt [] "A" 1) ∧
      ((g.cursorsAt [] "A" 1).step g).found = #[⟨"B", "B"⟩] ∧
      g.cursorsAt [] "A" 2 = (g.cursorsAt [] "A" 1).step g ∧
      later.stack = [] ∧ later.onPath.isEmpty = true := by
  intro g later
  have hnodes : g.nodes.toList = ["A", "B"] := by
    rw [nodes_twoTasks]
  have hfirst := @search_keeps_track_of_path (twoTasks ["B"] ["B", "A"]) [] ["B"] "A" hnodes
  have hsecond := @search_keeps_track_of_path (twoTasks ["B"] ["B", "A"]) ["A"] [] "B" hnodes
  obtain ⟨htracks, hstep, -⟩ := hfirst.2.2.1 1
  refine ⟨hnodes, hnodes, ?_, htracks, ?_, hstep, hsecond.1, hsecond.2.1⟩
  · simp [g, cursorsAt, CursorSearch.explore, CursorSearch.run, CursorSearch.step,
      CursorSearch.enter, CursorSearch.start, dependencies_twoTasks_first]
  · simp [g, cursorsAt, CursorSearch.explore, CursorSearch.run, CursorSearch.step,
      CursorSearch.enter, CursorSearch.start, dependencies_twoTasks_first,
      dependencies_twoTasks_second]

end PlanAudit
