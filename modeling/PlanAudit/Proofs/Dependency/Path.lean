import Mathlib.Data.List.Chain
import PlanAudit.Dependency.Search
import PlanAudit.Proofs.Dependency.TaskGraph

/-! The states of the search for circular dependencies: the stack is a path along dependencies, and
every reported edge closes a cycle. -/
namespace PlanAudit.Search

open DependencyGraph

variable {g : DependencyGraph} {s t : Search}

/-- What a search that has not come to its end can do: leave an id, report an edge into the path and
drop the path, pass over an id it knows, or go down to a new one. -/
inductive Step (g : DependencyGraph) : Search → Search → Prop where
  | leave {visited onPath : Std.HashSet String} {id : String} {below : List Frame}
      {found : Array BackEdge} :
      Step g ⟨visited, onPath, ⟨id, []⟩ :: below, found⟩
        ⟨visited, onPath.erase id, below, found⟩
  | report {visited onPath : Std.HashSet String} {id next : String} {pending : List String}
      {below : List Frame} {found : Array BackEdge} (hpath : next ∈ onPath) :
      Step g ⟨visited, onPath, ⟨id, next :: pending⟩ :: below, found⟩
        ⟨visited, ∅, [], found.push ⟨id, next⟩⟩
  | pass {visited onPath : Std.HashSet String} {id next : String} {pending : List String}
      {below : List Frame} {found : Array BackEdge} (hpath : next ∉ onPath)
      (hvisited : next ∈ visited) :
      Step g ⟨visited, onPath, ⟨id, next :: pending⟩ :: below, found⟩
        ⟨visited, onPath, ⟨id, pending⟩ :: below, found⟩
  | descend {visited onPath : Std.HashSet String} {id next : String} {pending : List String}
      {below : List Frame} {found : Array BackEdge} (hpath : next ∉ onPath)
      (hvisited : next ∉ visited) :
      Step g ⟨visited, onPath, ⟨id, next :: pending⟩ :: below, found⟩
        (enter g next ⟨visited, onPath, ⟨id, pending⟩ :: below, found⟩)

theorem step_spec (g : DependencyGraph) (h : s.stack ≠ []) : Step g s (s.step g) := by
  obtain ⟨visited, onPath, stack, found⟩ := s
  cases stack with
  | nil => exact absurd rfl h
  | cons frame below =>
    obtain ⟨id, pending⟩ := frame
    cases pending with
    | nil => exact .leave
    | cons next pending =>
      rw [step]
      split_ifs with hpath hvisited
      · exact .report (Std.HashSet.contains_iff_mem.1 hpath)
      · exact .pass (fun h => hpath (Std.HashSet.contains_iff_mem.2 h))
          (Std.HashSet.contains_iff_mem.1 hvisited)
      · exact .descend (fun h => hpath (Std.HashSet.contains_iff_mem.2 h))
          fun h => hvisited (Std.HashSet.contains_iff_mem.2 h)

/-- What every step keeps holds after a run. -/
theorem run_induction {P : Search → Prop} (hstep : ∀ {s t}, P s → Step g s t → P t) (h : P s)
    (limit : Nat) : P (run g limit s) := by
  induction limit generalizing s with
  | zero => exact h
  | succ limit ih =>
    rw [run]
    split_ifs with hempty
    · exact h
    · exact ih (hstep h (step_spec g fun hnil => hempty (by rw [hnil]; rfl)))

theorem run_of_stack_eq_nil (h : s.stack = []) (limit : Nat) : run g limit s = s := by
  cases limit with
  | zero => rfl
  | succ limit => rw [run, h, List.isEmpty_nil, if_pos rfl]

theorem run_add (first second : Nat) : run g (first + second) s = run g second (run g first s) := by
  induction first generalizing s with
  | zero => rw [Nat.zero_add, run]
  | succ first ih =>
    rw [Nat.add_right_comm, run, run]
    split_ifs with hempty
    · rw [run_of_stack_eq_nil (List.isEmpty_iff.1 hempty)]
    · exact ih

theorem explore_of_mem {root : String} (h : root ∈ s.visited) (limit : Nat) :
    s.explore g limit root = s := by
  rw [explore, if_pos (Std.HashSet.contains_iff_mem.2 h)]

theorem explore_of_notMem {root : String} (h : root ∉ s.visited) (limit : Nat) :
    s.explore g limit root = run g limit (s.enter g root) := by
  rw [explore, if_neg fun hvisited => h (Std.HashSet.contains_iff_mem.1 hvisited)]

def path (s : Search) : List String :=
  s.stack.map Frame.id

/-- The stack is a path along dependencies without repetition. A frame has looked at its
dependencies up to and including the id above it. -/
structure Valid (g : DependencyGraph) (s : Search) : Prop where
  path_nodup : s.path.Nodup
  onPath_iff : ∀ {id}, id ∈ s.onPath ↔ id ∈ s.path
  visited_of_path : ∀ {id}, id ∈ s.path → id ∈ s.visited
  linked : s.stack.IsChain fun upper lower =>
    ∃ looked, g.dependencies lower.id = looked ++ upper.id :: lower.pending
  pending_suffix : ∀ frame ∈ s.stack, frame.pending <:+ g.dependencies frame.id

theorem valid_start (g : DependencyGraph) : Valid g start where
  path_nodup := List.nodup_nil
  onPath_iff := by simp [start, path]
  visited_of_path := by simp [start, path]
  linked := List.isChain_nil
  pending_suffix := by simp [start]

/-- Going down to a new id keeps a state valid if the frame below has just looked at the id. -/
theorem Valid.enter (h : Valid g s) {id : String} (hnew : id ∉ s.visited)
    (hbelow : ∀ frame ∈ s.stack.head?,
      ∃ looked, g.dependencies frame.id = looked ++ id :: frame.pending) :
    Valid g (s.enter g id) := by
  obtain ⟨visited, onPath, stack, found⟩ := s
  have hoff : id ∉ stack.map Frame.id := fun hid => hnew (h.visited_of_path hid)
  constructor
  · exact List.nodup_cons.2 ⟨hoff, h.path_nodup⟩
  · intro other
    simp only [Search.enter, path, List.map_cons, Std.HashSet.mem_insert, List.mem_cons,
      beq_iff_eq, h.onPath_iff]
    exact or_congr_left eq_comm
  · intro other hother
    simp only [Search.enter, path, List.map_cons, Std.HashSet.mem_insert, List.mem_cons,
      beq_iff_eq] at hother ⊢
    rcases hother with heq | hother
    · exact .inl heq.symm
    · exact .inr (h.visited_of_path hother)
  · exact List.isChain_cons.2 ⟨hbelow, h.linked⟩
  · intro frame hframe
    rcases List.mem_cons.1 hframe with rfl | hframe
    · exact List.suffix_refl _
    · exact h.pending_suffix frame hframe

/-- Looking at one more dependency of the last id keeps a state valid. -/
theorem Valid.advance {visited onPath : Std.HashSet String} {id next : String}
    {pending : List String} {below : List Frame} {found : Array BackEdge}
    (h : Valid g ⟨visited, onPath, ⟨id, next :: pending⟩ :: below, found⟩) :
    Valid g ⟨visited, onPath, ⟨id, pending⟩ :: below, found⟩ := by
  refine ⟨h.path_nodup, h.onPath_iff, h.visited_of_path, ?_, ?_⟩
  · obtain ⟨hhead, hbelow⟩ := List.isChain_cons.1 h.linked
    exact List.isChain_cons.2 ⟨hhead, hbelow⟩
  · intro frame hframe
    rcases List.mem_cons.1 hframe with rfl | hframe
    · exact (List.suffix_cons next pending).trans (h.pending_suffix _ List.mem_cons_self)
    · exact h.pending_suffix frame (List.mem_cons_of_mem _ hframe)

theorem Valid.step (h : Valid g s) (hstep : Step g s t) : Valid g t := by
  cases hstep with
  | @leave visited onPath id below found =>
    obtain ⟨hid, hbelow⟩ := List.nodup_cons.1 h.path_nodup
    refine ⟨hbelow, ?_, fun hother => h.visited_of_path (List.mem_cons_of_mem _ hother),
      h.linked.tail, fun frame hframe => h.pending_suffix frame (List.mem_cons_of_mem _ hframe)⟩
    intro other
    have honPath : other ∈ onPath ↔ other ∈ id :: below.map Frame.id := h.onPath_iff
    rw [Std.HashSet.mem_erase, honPath, List.mem_cons, beq_eq_false_iff_ne]
    constructor
    · rintro ⟨hne, heq | hmem⟩
      · exact absurd heq.symm hne
      · exact hmem
    · intro hmem
      exact ⟨fun heq => hid (heq ▸ hmem), .inr hmem⟩
  | report hpath =>
    exact ⟨List.nodup_nil, by simp [path], by simp [path], List.isChain_nil, by simp⟩
  | pass hpath hvisited => exact h.advance
  | @descend visited onPath id next pending below found hpath hvisited =>
    refine h.advance.enter hvisited fun frame hframe => ?_
    cases hframe
    obtain ⟨looked, hlooked⟩ := h.pending_suffix _ List.mem_cons_self
    exact ⟨looked, hlooked.symm⟩

theorem Valid.mem_dependencies_of_pending {visited onPath : Std.HashSet String} {id next : String}
    {pending : List String} {below : List Frame} {found : Array BackEdge}
    (h : Valid g ⟨visited, onPath, ⟨id, next :: pending⟩ :: below, found⟩) :
    next ∈ g.dependencies id :=
  (h.pending_suffix _ List.mem_cons_self).subset List.mem_cons_self

/-- From every id on the path dependencies lead to the last one. -/
theorem Valid.reaches_last {visited onPath : Std.HashSet String} {frame : Frame}
    {below : List Frame} {found : Array BackEdge}
    (h : Valid g ⟨visited, onPath, frame :: below, found⟩) :
    ∀ id ∈ (frame :: below).map Frame.id, g.Reaches id frame.id := by
  have hchain := h.linked
  clear h
  induction below generalizing frame with
  | nil =>
    intro id hid
    rw [List.map_singleton, List.mem_singleton] at hid
    rw [hid]
    exact .refl
  | cons lower below ih =>
    intro id hid
    obtain ⟨⟨looked, hlooked⟩, hbelow⟩ := List.isChain_cons_cons.1 hchain
    rcases List.mem_cons.1 hid with rfl | hid
    · exact .refl
    · refine (ih hbelow id hid).tail ?_
      rw [hlooked]
      exact List.mem_append_right _ List.mem_cons_self

def Closing (g : DependencyGraph) (edge : BackEdge) : Prop :=
  edge.target ∈ g.dependencies edge.source ∧ g.Reaches edge.target edge.source

theorem Valid.closing_step (h : Valid g s) (hfound : ∀ edge ∈ s.found, Closing g edge)
    (hstep : Step g s t) : ∀ edge ∈ t.found, Closing g edge := by
  cases hstep with
  | leave => exact hfound
  | @report visited onPath id next pending below found hpath =>
    intro edge hedge
    rcases Array.mem_push.1 hedge with hedge | rfl
    · exact hfound edge hedge
    · exact ⟨h.mem_dependencies_of_pending, h.reaches_last next (h.onPath_iff.1 hpath)⟩
  | pass => exact hfound
  | descend => exact hfound

end PlanAudit.Search
