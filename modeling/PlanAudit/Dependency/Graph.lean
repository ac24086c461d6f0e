import Std.Data.HashMap
import Std.Data.HashSet
import PlanAudit.Plan.Task

/-! The dependency graph of a list of tasks. -/
namespace PlanAudit

/-- The declared ids in the order of their first declaration, and what each depends on. -/
structure DependencyGraph where
  nodes : Array String
  edges : Std.HashMap String (List String)

namespace DependencyGraph

def empty : DependencyGraph :=
  ⟨#[], ∅⟩

/-- A task without an id is left out. An id that is declared again gets further dependencies. -/
def add (g : DependencyGraph) (task : Task) : DependencyGraph :=
  match task.id with
  | none => g
  | some id =>
    match g.edges[id]? with
    | some dependencies => { g with edges := g.edges.insert id (dependencies ++ task.dependsOn) }
    | none => ⟨g.nodes.push id, g.edges.insert id task.dependsOn⟩

def ofTasks (tasks : List Task) : DependencyGraph :=
  tasks.foldl add empty

/-- What an id depends on. An id that is not declared depends on nothing. -/
def dependencies (g : DependencyGraph) (id : String) : List String :=
  g.edges.getD id []

/-- All entries of the dependency lists, in the order of the declared ids. -/
def targets (g : DependencyGraph) : List String :=
  g.nodes.toList.flatMap g.dependencies

/-- The number of different ids that are declared or mentioned. -/
def idCount (g : DependencyGraph) : Nat :=
  (Std.HashSet.ofList (g.nodes.toList ++ g.targets)).size

end DependencyGraph

end PlanAudit
