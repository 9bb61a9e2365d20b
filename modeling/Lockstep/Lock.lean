import Lockstep.LockTable

/-!
# Lockstep — locks

What a lock file records about the configurations of a module: the coordinates
that they lock, and the names of those that have nothing to lock.

* `tracked` — the configurations that a lock knows at all.
* `entries` — what is written: coordinates with a set, in the order of their texts.
* `Step`    — the changes that build a lock up one by one.
-/

namespace Lockstep

/-- Locked coordinates, and configurations with nothing to lock. -/
structure Lock where
  locked : LockTable := ∅
  empty : NameSet := ∅
  deriving DecidableEq, Repr, Inhabited

namespace Lock

/-- The names of all configurations of the lock. -/
def tracked (l : Lock) : NameSet := l.locked.names ∪ l.empty

/-- The coordinates that some configuration locks, by their texts; equal texts keep
the order of entry. -/
def entries (l : Lock) : List (Coordinate × NameSet) :=
  (Text.sortBy (·.1.text) l.locked.entries).filter fun e => !e.2.isEmpty

/-- Records that a configuration locks a coordinate. -/
def add (l : Lock) (c : Coordinate) (name : Text) : Lock :=
  { l with locked := l.locked.add c name }

/-- Records that a configuration has nothing to lock. -/
def addEmpty (l : Lock) (name : Text) : Lock :=
  { l with empty := l.empty.insert name }

-- ---------------------------------------------------------------------------
-- Changes one by one
-- ---------------------------------------------------------------------------

/-- One change of a lock, or of entries read from it. -/
inductive Step where
  /-- A configuration locks a coordinate. -/
  | add (c : Coordinate) (name : Text)
  /-- A configuration has nothing to lock. -/
  | addEmpty (name : Text)
  /-- No configuration locks the coordinate any more. -/
  | clear (c : Coordinate)
  /-- A name joins every set of the entries read from the lock; they are values of their own, so that
  the lock stays as it is. -/
  | widenEntries (name : Text)
  deriving DecidableEq, Repr

/-- The lock after a change. -/
def step (l : Lock) : Step → Lock
  | .add c name => l.add c name
  | .addEmpty name => l.addEmpty name
  | .clear c => { l with locked := l.locked.clear c }
  | .widenEntries _ => l

/-- The lock after a sequence of changes. -/
def run (l : Lock) (steps : List Step) : Lock := steps.foldl step l

end Lock

end Lockstep
