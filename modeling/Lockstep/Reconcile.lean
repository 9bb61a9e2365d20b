import Lockstep.Lock
import Lockstep.Project

/-!
# Lockstep — reconciling a lock with a project

Configurations of the lock that the project can resolve are recomputed from
what they resolved to. All others keep what is recorded about them, for a
configuration that is gone is somebody else's to clean up. A configuration that
the lock does not know stays unknown.

* `recomputed`  — the names that are recomputed.
* `carried`     — the part of the lock that is kept as it is.
* `recordConfiguration` — what one resolved configuration adds.
* `reconcile`   — the lock after both.
-/

namespace Lockstep

namespace Project

/-- The configurations that a lock with these names has recomputed. -/
def recomputable (p : Project) (tracked : NameSet) : List Configuration :=
  p.configurations.filter fun c => c.resolvable && decide (c.name ∈ tracked)

/-- The dependencies of a configuration that are no edges to siblings. -/
def external (p : Project) (siblings : List Sibling) (c : Configuration) : List Coordinate :=
  c.resolved.filter fun d => !p.isSiblingEdge siblings d

end Project

namespace Lock

/-- The names of a lock that a project can recompute. -/
def recomputed (old : Lock) (p : Project) : NameSet :=
  NameSet.ofList ((p.recomputable old.tracked).map (·.name))

/-- What a lock records about all names but those given. -/
def carried (old : Lock) (gone : NameSet) : Lock where
  locked := old.locked.entries.foldl (fun t e =>
    let kept := e.2 \ gone
    if kept.isEmpty then t else t.addAll e.1 kept) ∅
  empty := old.empty \ gone

/-- Adds a configuration: its coordinates, or its name alone if it has none. -/
def record (l : Lock) (name : Text) (coordinates : List Coordinate) : Lock :=
  if coordinates.isEmpty then l.addEmpty name
  else coordinates.foldl (fun l c => l.add c name) l

/-- The lock in step with a project of a build with these siblings. -/
def reconcile (old : Lock) (p : Project) (siblings : List Sibling) : Lock :=
  (p.recomputable old.tracked).foldl
    (fun l c => l.record c.name (p.external siblings c))
    (old.carried (old.recomputed p))

end Lock

end Lockstep
