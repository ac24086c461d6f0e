import PlanAudit.Dependency.Graph

/-! Depth-first search for circular dependencies, on a stack of its own. -/
namespace PlanAudit

/-- A dependency that leads back to an id on the current path. -/
structure BackEdge where
  source : String
  target : String
  deriving Repr, DecidableEq

/-- An id on the current path, and those of its dependencies that have not been looked at. -/
structure Frame where
  id : String
  pending : List String
  deriving Repr, DecidableEq

/-- The state of a search. The stack holds the current path, last id first. -/
structure Search where
  visited : Std.HashSet String
  onPath : Std.HashSet String
  stack : List Frame
  found : Array BackEdge

namespace Search

def start : Search :=
  ⟨∅, ∅, [], #[]⟩

/-- Go down to an id that has not been visited. -/
def enter (g : DependencyGraph) (id : String) : Search → Search
  | ⟨visited, onPath, stack, found⟩ =>
    ⟨visited.insert id, onPath.insert id, ⟨id, g.dependencies id⟩ :: stack, found⟩

/-- One step: leave an id that has nothing pending, or look at its next dependency. A dependency on the
path is reported and ends the search from the current root. -/
def step (g : DependencyGraph) : Search → Search
  | ⟨visited, onPath, [], found⟩ => ⟨visited, onPath, [], found⟩
  | ⟨visited, onPath, ⟨id, []⟩ :: below, found⟩ => ⟨visited, onPath.erase id, below, found⟩
  | ⟨visited, onPath, ⟨id, next :: pending⟩ :: below, found⟩ =>
    if onPath.contains next then ⟨visited, ∅, [], found.push ⟨id, next⟩⟩
    else if visited.contains next then ⟨visited, onPath, ⟨id, pending⟩ :: below, found⟩
    else enter g next ⟨visited, onPath, ⟨id, pending⟩ :: below, found⟩

/-- Up to `limit` steps, until the stack is empty. -/
def run (g : DependencyGraph) : (limit : Nat) → Search → Search
  | 0, s => s
  | limit + 1, s => if s.stack.isEmpty then s else run g limit (s.step g)

/-- Search from a root unless it has been visited. -/
def explore (g : DependencyGraph) (limit : Nat) (s : Search) (root : String) : Search :=
  if s.visited.contains root then s else run g limit (s.enter g root)

end Search

namespace DependencyGraph

/-- Each id is left at most once and each entry of a dependency list is looked at at most once. -/
def stepLimit (g : DependencyGraph) : Nat :=
  g.idCount + g.targets.length

/-- The back edges that a search from every declared id finds, at most one from each. -/
def backEdges (g : DependencyGraph) : List BackEdge :=
  let limit := g.stepLimit
  (g.nodes.foldl (Search.explore g limit) .start).found.toList

end DependencyGraph

end PlanAudit
