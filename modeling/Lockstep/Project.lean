import Lockstep.LockTable

/-!
# Lockstep — projects

A project is one module of a build with its configurations, each resolved to
the coordinates it depends on. Modules of one build are siblings, known by group
and name; an edge between two of them is not a locked dependency.
-/

namespace Lockstep

/-- A dependency scope, as the graph resolver reports it. -/
structure Configuration where
  name : Text
  /-- Whether the resolver can resolve it. -/
  resolvable : Bool := true
  /-- What it resolved to, in the resolver's order. -/
  resolved : List Coordinate := []
  deriving DecidableEq, Repr

/-- A module of the build, as its siblings see it. -/
structure Sibling where
  group : Text
  name : Text
  deriving DecidableEq, Repr

/-- One module of the build and its configurations, whose names may repeat. -/
structure Project where
  name : Text
  group : Option Text := none
  configurations : List Configuration := []
  deriving DecidableEq, Repr

namespace Sibling

/-- The two fields, by which siblings are ordered. -/
def fields (s : Sibling) : List Text := [s.group, s.name]

/-- Each sibling once, by group and then name. -/
def sortDistinct (ss : List Sibling) : List Sibling :=
  Sorting.sortBy (fun a b => Sorting.upTo a.fields b.fields) ss.eraseDups

end Sibling

namespace Project

/-- How the siblings of a project know it; a missing group counts as an empty one. -/
def sibling (p : Project) : Sibling := ⟨p.group.getD [], p.name⟩

/-- The first configuration of a name. -/
def configuration? (p : Project) (name : Text) : Option Configuration :=
  p.configurations.find? fun c => c.name = name

/-- Whether a dependency is an edge to a sibling: its group is the project's, and a
sibling has its group and name. -/
def isSiblingEdge (p : Project) (siblings : List Sibling) (c : Coordinate) : Bool :=
  some c.group = p.group && siblings.contains ⟨c.group, c.artifact⟩

end Project

-- ---------------------------------------------------------------------------
-- Module paths
-- ---------------------------------------------------------------------------

namespace ModulePath

/-- Drops slashes from both ends. -/
def dropSlashes (t : Text) : Text := t.trimBy (· == char '/')

/-- Colons separate if the path starts with one, or has no slash. -/
def hasColonSeparators (t : Text) : Bool :=
  t.head? == some (char ':') || (t.contains (char ':') && !t.contains (char '/'))

/-- The module path that a snapshot means. -/
def ofSnapshot (t : Text) : Text :=
  let trimmed := t.trim
  dropSlashes (if hasColonSeparators trimmed then trimmed.replaceChar (char ':') (char '/') else trimmed)

/-- The module path that an argument of the command line means. -/
def ofArgument (t : Text) : Text :=
  (t.trimBy fun c => c == char ':' || c == char '/').replaceChar (char ':') (char '/')

/-- The module path in messages, where the root module is a colon. -/
def shown (path : Text) : Text := if path.isEmpty then [char ':'] else path

end ModulePath

end Lockstep
