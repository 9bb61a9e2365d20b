import Lockstep.Text.Quoted

/-!
# Lockstep — paths

A path is an anchor and the names that lead from it to its target. Slashes in a
row count as one, and a name that is a single dot is left out; two dots are a
name like any other. A path is relative, or starts at the root; two slashes at
its start, but not three, are a root of their own.

* `ofText`, `text`   — reading and writing.
* `parent`, `name`   — all but the last name, and the last name.
* `relativeTo?`      — the names that lead from one path to another.
-/

namespace Lockstep

/-- Where a path starts. -/
inductive Anchor where
  | relative
  | root
  | doubleRoot
  deriving DecidableEq, Repr

/-- The text of an anchor. -/
def Anchor.text : Anchor → Text
  | .relative => []
  | .root => [char '/']
  | .doubleRoot => [char '/', char '/']

/-- Whether a text can be one of the names of a path. -/
def isPathName (t : Text) : Bool := !t.isEmpty && t != [char '.'] && !t.contains (char '/')

/-- An anchor and the names that lead from it to the target. -/
structure Path where
  anchor : Anchor := .relative
  parts : List Text := []
  proper : parts.all isPathName = true := by rfl
  deriving DecidableEq, Repr

namespace Path

/-- The path that stays where it is. -/
def here : Path := {}

/-- The path of the root. -/
def root : Path := { anchor := .root }

instance : Inhabited Path := ⟨here⟩

/-- The anchor that a text starts with. -/
def anchorOf : Text → Anchor
  | char '/' :: char '/' :: char '/' :: _ => .root
  | char '/' :: char '/' :: _ => .doubleRoot
  | char '/' :: _ => .root
  | _ => .relative

/-- The path with more names after its own; what is no name is left out. -/
def append (p : Path) (names : List Text) : Path where
  anchor := p.anchor
  parts := p.parts ++ names.filter isPathName
  proper := by
    rw [List.all_append, p.proper, Bool.true_and]
    exact List.all_eq_true.2 fun _ h => (List.mem_filter.1 h).2

/-- The path that a text writes. -/
def ofText (t : Text) : Path := append { anchor := anchorOf t } (t.splitOn (char '/'))

/-- The text of a path; that of an empty relative path is a dot. -/
def text (p : Path) : Text :=
  if p.anchor = .relative ∧ p.parts = [] then [char '.']
  else p.anchor.text ++ Text.joinWith [char '/'] p.parts

/-- The path without its last name. -/
def parent (p : Path) : Path where
  anchor := p.anchor
  parts := p.parts.dropLast
  proper := List.all_eq_true.2 fun _ h => List.all_eq_true.1 p.proper _ (List.dropLast_subset _ h)

/-- The last name; empty if there is none. -/
def name (p : Path) : Text := p.parts.getLast?.getD []

/-- The path that another one leads to from this one. -/
def join (p q : Path) : Path :=
  if q.anchor = .relative then p.append q.parts else q

/-- The names that lead from `base` to a path below it. -/
def relativeTo? (p base : Path) : Option (List Text) :=
  if p.anchor = base.anchor ∧ base.parts <+: p.parts then some (p.parts.drop base.parts.length)
  else none

end Path

end Lockstep
