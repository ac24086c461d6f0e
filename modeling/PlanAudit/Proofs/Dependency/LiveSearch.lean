import Mathlib.Logic.Function.Iterate
import PlanAudit.Proofs.Dependency.CycleSearch

/-! The search for circular dependencies reports what the ids that lead to a cycle make it report,
whatever the other ids are. -/
namespace PlanAudit

/-- The state of a search that knows only some of the ids. -/
structure Outline where
  visited : String → Bool
  stack : List Frame
  found : Array BackEdge

namespace Outline

variable {dependencies : String → List String}

def enter (dependencies : String → List String) (id : String) : Outline → Outline
  | ⟨visited, stack, found⟩ =>
    ⟨fun other => id == other || visited other, ⟨id, dependencies id⟩ :: stack, found⟩

def begin (live : String → Bool) (dependencies : String → List String) (root : String)
    (o : Outline) : Outline :=
  if live root && !o.visited root then o.enter dependencies root else o

def step (dependencies : String → List String) : Outline → Outline
  | ⟨visited, [], found⟩ => ⟨visited, [], found⟩
  | ⟨visited, ⟨_, []⟩ :: below, found⟩ => ⟨visited, below, found⟩
  | ⟨visited, ⟨id, next :: pending⟩ :: below, found⟩ =>
    if next ∈ id :: below.map Frame.id then ⟨visited, [], found.push ⟨id, next⟩⟩
    else if visited next then ⟨visited, ⟨id, pending⟩ :: below, found⟩
    else enter dependencies next ⟨visited, ⟨id, pending⟩ :: below, found⟩

private theorem iterate_step_of_stack_eq_nil {o : Outline} (h : o.stack = []) (n : Nat) :
    (step dependencies)^[n] o = o := by
  obtain ⟨visited, stack, found⟩ := o
  subst h
  exact Function.iterate_fixed rfl n

/-- Two runs that both come to the end come to the same one. -/
theorem iterate_step_eq {o : Outline} {m n : Nat}
    (hm : ((step dependencies)^[m] o).stack = []) (hn : ((step dependencies)^[n] o).stack = []) :
    (step dependencies)^[m] o = (step dependencies)^[n] o := by
  rcases Nat.le_total m n with hle | hle
  · obtain ⟨k, rfl⟩ := Nat.exists_eq_add_of_le' hle
    rw [Function.iterate_add_apply, iterate_step_of_stack_eq_nil hm]
  · obtain ⟨k, rfl⟩ := Nat.exists_eq_add_of_le' hle
    rw [Function.iterate_add_apply, iterate_step_of_stack_eq_nil hn]

end Outline

namespace DependencyGraph

def dependenciesIn (g : DependencyGraph) (live : String → Bool) (id : String) : List String :=
  (g.dependencies id).filter live

def Live (g : DependencyGraph) (live : String → Bool) : Prop :=
  ∀ id, live id = true ↔ ¬ g.Grounded id

variable {g : DependencyGraph} {live : String → Bool}

theorem Live.of_dependency (hlive : g.Live live) {id target : String}
    (htarget : target ∈ g.dependencies id) (h : live target = true) : live id = true := by
  rw [hlive] at h ⊢
  exact fun hgrounded => h ((g.grounded_iff id).1 hgrounded target htarget)

theorem Live.of_cycle (hlive : g.Live live) {id : String} (h : g.Precedes id id) :
    live id = true :=
  (hlive id).2 fun hgrounded => hgrounded.not_precedes_self h

end DependencyGraph

namespace Search

open DependencyGraph

variable {g : DependencyGraph} {live : String → Bool} {s t : Search}

/-- The frames of the ids with a property, which have such ids pending only. -/
def outlineStack (live : String → Bool) (stack : List Frame) : List Frame :=
  (stack.filter (live ·.id)).map fun frame => ⟨frame.id, frame.pending.filter live⟩

def outline (live : String → Bool) (s : Search) : Outline where
  visited id := live id && s.visited.contains id
  stack := outlineStack live s.stack
  found := s.found

theorem outlineStack_cons_of_live {id : String} {pending : List String} {below : List Frame}
    (h : live id = true) : outlineStack live (⟨id, pending⟩ :: below) =
      ⟨id, pending.filter live⟩ :: outlineStack live below := by
  simp [outlineStack, h]

theorem outlineStack_cons_of_not_live {id : String} {pending : List String} {below : List Frame}
    (h : live id = false) :
    outlineStack live (⟨id, pending⟩ :: below) = outlineStack live below := by
  simp [outlineStack, h]

private theorem map_id_outlineStack (stack : List Frame) :
    (outlineStack live stack).map Frame.id = (stack.map Frame.id).filter live := by
  simp [outlineStack, List.filter_map, Function.comp_def]

theorem outline_visited_insert (visited : Std.HashSet String) (id : String) :
    (fun other => live other && (visited.insert id).contains other) =
      fun other => live id && id == other || live other && visited.contains other := by
  funext other
  rw [Std.HashSet.contains_insert]
  by_cases heq : id = other
  · cases h : live other <;> simp [heq, h]
  · simp [beq_false_of_ne heq]

theorem outline_enter_of_live {id : String} (h : live id = true) :
    outline live (s.enter g id) = (outline live s).enter (g.dependenciesIn live) id := by
  simp only [outline, enter, Outline.enter, dependenciesIn, outlineStack_cons_of_live h,
    outline_visited_insert, h, Bool.true_and]

theorem outline_enter_of_not_live {id : String} (h : live id = false) :
    outline live (s.enter g id) = outline live s := by
  simp only [outline, enter, outlineStack_cons_of_not_live h, outline_visited_insert, h,
    Bool.false_and, Bool.false_or]

/-- Passing over an id without the property cannot be seen on the outline. -/
theorem outline_pass_of_not_live {visited onPath : Std.HashSet String} {id next : String}
    {pending : List String} {below : List Frame} {found : Array BackEdge}
    (h : live next = false) :
    outline live ⟨visited, onPath, ⟨id, pending⟩ :: below, found⟩ =
      outline live ⟨visited, onPath, ⟨id, next :: pending⟩ :: below, found⟩ := by
  cases hid : live id with
  | false => simp only [outline, outlineStack_cons_of_not_live hid]
  | true => simp only [outline, outlineStack_cons_of_live hid, List.filter_cons, h,
      Bool.false_eq_true, if_false]

/-- The outline looks at the next dependency just as the search does. -/
theorem outline_look {visited onPath : Std.HashSet String} {id next : String}
    {pending : List String} {below : List Frame} {found : Array BackEdge}
    (h : Valid g ⟨visited, onPath, ⟨id, next :: pending⟩ :: below, found⟩)
    (hid : live id = true) (hnext : live next = true) (dependencies : String → List String) :
    (outline live ⟨visited, onPath, ⟨id, next :: pending⟩ :: below, found⟩).step dependencies =
      if next ∈ onPath then outline live ⟨visited, ∅, [], found.push ⟨id, next⟩⟩
      else if next ∈ visited then outline live ⟨visited, onPath, ⟨id, pending⟩ :: below, found⟩
      else (outline live ⟨visited, onPath, ⟨id, pending⟩ :: below, found⟩).enter
        dependencies next := by
  have hpath : next ∈ id :: (outlineStack live below).map Frame.id ↔ next ∈ onPath := by
    have honPath : next ∈ onPath ↔ next ∈ id :: below.map Frame.id := h.onPath_iff
    rw [honPath, map_id_outlineStack, List.mem_cons, List.mem_cons, List.mem_filter]
    exact or_congr_right (and_iff_left hnext)
  simp only [outline, outlineStack_cons_of_live hid, List.filter_cons, hnext, if_true,
    Outline.step, hpath]
  rfl

/-- A step of the search is a step of its outline, or its outline stays as it is. -/
theorem outline_step (hlive : g.Live live) (h : Valid g s) (hstep : Step g s t) :
    outline live t = outline live s ∨
      outline live t = (outline live s).step (g.dependenciesIn live) := by
  cases hstep with
  | @leave visited onPath id below found =>
    cases hid : live id with
    | false => exact .inl (by simp only [outline, outlineStack_cons_of_not_live hid])
    | true =>
      exact .inr (by simp only [outline, outlineStack_cons_of_live hid, List.filter_nil,
        Outline.step])
  | @report visited onPath id next pending below found hpath =>
    have hback : g.Reaches next id := h.reaches_last next (h.onPath_iff.1 hpath)
    have hnext : live next = true := hlive.of_cycle (.tail' hback h.mem_dependencies_of_pending)
    have hid : live id = true := hlive.of_dependency h.mem_dependencies_of_pending hnext
    rw [outline_look h hid hnext, if_pos hpath]
    exact .inr rfl
  | @pass visited onPath id next pending below found hpath hvisited =>
    cases hnext : live next with
    | false => exact .inl (outline_pass_of_not_live hnext)
    | true =>
      have hid : live id = true := hlive.of_dependency h.mem_dependencies_of_pending hnext
      rw [outline_look h hid hnext, if_neg hpath, if_pos hvisited]
      exact .inr rfl
  | @descend visited onPath id next pending below found hpath hvisited =>
    cases hnext : live next with
    | false =>
      rw [outline_enter_of_not_live hnext]
      exact .inl (outline_pass_of_not_live hnext)
    | true =>
      have hid : live id = true := hlive.of_dependency h.mem_dependencies_of_pending hnext
      rw [outline_look h hid hnext, if_neg hpath, if_neg hvisited]
      exact .inr (outline_enter_of_live hnext)

theorem outline_run (hlive : g.Live live) (h : Valid g s) (limit : Nat) :
    ∃ n, outline live (run g limit s) =
      (Outline.step (g.dependenciesIn live))^[n] (outline live s) := by
  have hrun : Valid g (run g limit s) ∧ ∃ n, outline live (run g limit s) =
      (Outline.step (g.dependenciesIn live))^[n] (outline live s) := by
    refine run_induction (P := fun t => Valid g t ∧ ∃ n, outline live t =
      (Outline.step (g.dependenciesIn live))^[n] (outline live s)) ?_ ⟨h, 0, rfl⟩ limit
    rintro t u ⟨hvalid, n, hn⟩ hstep
    refine ⟨hvalid.step hstep, ?_⟩
    rcases outline_step hlive hvalid hstep with hstay | hmove
    · exact ⟨n, hstay.trans hn⟩
    · exact ⟨n + 1, by rw [hmove, hn, Function.iterate_succ_apply']⟩
  exact hrun.2

theorem outline_explore (hlive : g.Live live) (h : Valid g s) (hstack : s.stack = []) (limit : Nat)
    (root : String) :
    ∃ n, outline live (s.explore g limit root) =
      (Outline.step (g.dependenciesIn live))^[n]
        ((outline live s).begin live (g.dependenciesIn live) root) := by
  by_cases hvisited : root ∈ s.visited
  · rw [explore_of_mem hvisited]
    refine ⟨0, ?_⟩
    cases hroot : live root <;> simp [Outline.begin, outline, hroot, hvisited]
  · rw [explore_of_notMem hvisited]
    have hentered : Valid g (s.enter g root) := h.enter hvisited (by simp [hstack])
    have hbegin : outline live (s.enter g root) =
        (outline live s).begin live (g.dependenciesIn live) root := by
      cases hroot : live root with
      | false => simp [Outline.begin, hroot, outline_enter_of_not_live]
      | true =>
        have hunvisited : (outline live s).visited root = false := by
          simp [outline, hvisited]
        simp [Outline.begin, hroot, hunvisited, outline_enter_of_live]
    rw [← hbegin]
    exact outline_run hlive hentered limit

/-- Two graphs with the same live part are searched in the same way as far as that part goes. -/
theorem outline_explore_all {h : DependencyGraph} (hg : g.WellFormed) (hh : h.WellFormed)
    (hlive : g.Live live) (hlive' : h.Live live)
    (hsame : g.dependenciesIn live = h.dependenciesIn live) (roots : List String)
    (hroots : ∀ root ∈ roots, root ∈ g.nodes ∧ root ∈ h.nodes) (hs : Settling g s)
    (ht : Settling h t) (hstack : s.stack = []) (hstack' : t.stack = [])
    (heq : outline live s = outline live t) :
    outline live (roots.foldl (Search.explore g g.stepLimit) s) =
      outline live (roots.foldl (Search.explore h h.stepLimit) t) := by
  induction roots generalizing s t with
  | nil => exact heq
  | cons root roots ih =>
    obtain ⟨hroot, hrest⟩ := List.forall_mem_cons.1 hroots
    obtain ⟨hs', hend, _⟩ := hs.explore hg hstack hroot.1
    obtain ⟨ht', hend', _⟩ := ht.explore hh hstack' hroot.2
    refine ih hrest hs' ht' hend hend' ?_
    obtain ⟨m, hm⟩ := outline_explore hlive hs.valid hstack g.stepLimit root
    obtain ⟨n, hn⟩ := outline_explore hlive' ht.valid hstack' h.stepLimit root
    rw [← hsame, ← heq] at hn
    rw [hm, hn]
    -- both runs have come to the end
    refine Outline.iterate_step_eq ?_ ?_
    · rw [← hm, outline, hend]
      rfl
    · rw [← hn, outline, hend']
      rfl

end Search

/-- Two graphs with the same ids, of which the same ones lead to a cycle, have the same back edges
if those ids have the same dependencies among themselves. -/
theorem DependencyGraph.backEdges_eq_of_live {g h : DependencyGraph} {live : String → Bool}
    (hg : g.WellFormed) (hh : h.WellFormed) (hnodes : g.nodes = h.nodes) (hlive : g.Live live)
    (hlive' : h.Live live) (hsame : g.dependenciesIn live = h.dependenciesIn live) :
    g.backEdges = h.backEdges := by
  have houtline := Search.outline_explore_all hg hh hlive hlive' hsame g.nodes.toList
    (fun root hroot => ⟨Array.mem_toList_iff.1 hroot, hnodes ▸ Array.mem_toList_iff.1 hroot⟩)
    (Search.settling_start g) (Search.settling_start h) rfl rfl rfl
  rw [backEdges_eq, backEdges_eq, ← hnodes]
  exact congrArg (fun o => o.found.toList) houtline

end PlanAudit
