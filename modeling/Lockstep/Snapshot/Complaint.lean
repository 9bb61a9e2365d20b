import Lockstep.Text.Quoted

/-!
# Lockstep — complaints about a snapshot

A complaint names a place in a document and what is wrong there. A check
collects all complaints, in the order in which the places are visited, and has a
value only if there are none.

* `Checked.both`, `Checked.all` — the complaints of the parts, one after the other.
-/

namespace Lockstep

namespace Snapshot

/-- One step from a value to a part of it. -/
inductive Segment where
  | field (name : Text)
  | index (i : Nat)
  deriving DecidableEq, Repr

/-- The parts of a document that have fields. -/
inductive Shape where
  | build
  | module
  | configuration
  | dependency
  deriving DecidableEq, Repr

/-- What is wrong at a place. -/
inductive Problem where
  | missing
  | notText
  | notList
  | notObject (expected : Shape)
  | notBoolean
  | unknownBoolean
  /-- A text in place of a truth value has half of a surrogate pair. -/
  | brokenText
  | blankToken
  | forbidden (chars : List Letter)
  deriving DecidableEq, Repr

/-- What is wrong, and where. -/
structure Complaint where
  place : List Segment
  problem : Problem
  deriving DecidableEq, Repr

-- ---------------------------------------------------------------------------
-- Words
-- ---------------------------------------------------------------------------

/-- The name of a shape in messages. -/
def Shape.name : Shape → String
  | .build => "BuildSnapshotSchema"
  | .module => "ModuleSchema"
  | .configuration => "ConfigurationSchema"
  | .dependency => "ResolvedDependencySchema"

/-- The short name of a problem. -/
def Problem.kind : Problem → String
  | .missing => "missing"
  | .notText => "string_type"
  | .notList => "list_type"
  | .notObject _ => "model_type"
  | .notBoolean => "bool_type"
  | .unknownBoolean => "bool_parsing"
  | .brokenText => "string_unicode"
  | .blankToken => "value_error"
  | .forbidden _ => "value_error"

/-- The words for a problem. -/
def Problem.message : Problem → Text
  | .missing => "Field required".text
  | .notText => "Input should be a valid string".text
  | .notList => "Input should be a valid list".text
  | .notObject expected =>
    s!"Input should be a valid dictionary or instance of {expected.name}".text
  | .notBoolean => "Input should be a valid boolean".text
  | .unknownBoolean => "Input should be a valid boolean, unable to interpret input".text
  | .brokenText =>
    "Input should be a valid string, unable to parse raw data as a unicode string".text
  | .blankToken => "Value error, must not be empty".text
  | .forbidden chars =>
    "Value error, must not contain ".text ++
      Text.joinWith ", ".text (chars.map fun c => Text.quoted [c])

-- ---------------------------------------------------------------------------
-- Checks
-- ---------------------------------------------------------------------------

/-- A value, or all complaints about it. -/
abbrev Checked (α : Type) := Except (List Complaint) α

namespace Checked

/-- The complaints of a check. -/
def complaints {α : Type} : Checked α → List Complaint
  | .ok _ => []
  | .error es => es

/-- One complaint at a place. -/
def complain {α : Type} (place : List Segment) (problem : Problem) : Checked α :=
  .error [⟨place, problem⟩]

/-- Both values, or the complaints about both. -/
def both {α β : Type} (a : Checked α) (b : Checked β) : Checked (α × β) :=
  match a, b with
  | .ok x, .ok y => .ok (x, y)
  | a, b => .error (a.complaints ++ b.complaints)

/-- All values, or the complaints about all of them. -/
def all {α : Type} : List (Checked α) → Checked (List α)
  | [] => .ok []
  | a :: rest => (both a (all rest)).map fun (x, xs) => x :: xs

end Checked

end Snapshot

end Lockstep
