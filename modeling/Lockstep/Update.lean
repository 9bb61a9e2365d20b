import Lockstep.LockFile.Printer
import Lockstep.Reconcile

/-!
# Lockstep — updating the text of a lock file

A text is read, its lock is reconciled with a project, and the result is
written; nothing changes if that is the same text. A blank text is left alone.
-/

namespace Lockstep

-- ---------------------------------------------------------------------------
-- Events
-- ---------------------------------------------------------------------------

/-- Something worth a line in the log. -/
inductive Event where
  /-- A line of a lock file was not understood. -/
  | lineDropped (number : Nat) (reason : DropReason)
  /-- A lock was reconciled: how many names were recomputed and kept, how many coordinates and
  names without coordinates it has now. -/
  | reconciled (project : Text) (recomputed preserved entries empty : Nat)
  /-- A lock file could not be read and was left alone. -/
  | unreadable (path error : Text)
  /-- A lock file was in step already. -/
  | unchanged (path project : Text)
  /-- A lock file was brought into step. -/
  | written (path project : Text)
  /-- A lock file is not in step, and was not to be written. -/
  | outdated (path project : Text)
  /-- The number of workers in the environment is no number. -/
  | badJobs (value : Text)
  /-- A lock file belongs to no module of the snapshot. -/
  | moduleSkipped (path reason : Text)
  deriving DecidableEq, Repr

-- ---------------------------------------------------------------------------
-- Updates
-- ---------------------------------------------------------------------------

namespace LockFile

/-- The lock file in step with a project. -/
def reconcile (f : LockFile) (p : Project) (siblings : List Sibling) : LockFile :=
  { f with lock := f.lock.reconcile p siblings }

/-- The new text of a lock file, or nothing if it stays as it is. -/
def update (text : Text) (p : Project) (siblings : List Sibling) :
    Except UnwritableEntry (Option Text) :=
  if text.isAllBlank then .ok none
  else
    match ((parse text).reconcile p siblings).render text with
    | .error e => .error e
    | .ok rendered => .ok (if rendered = text then none else some rendered)

/-- The lines that a text loses, as events. -/
def dropEvents (text : Text) : List Event :=
  (droppedLines text).map fun (number, reason) => .lineDropped number reason

end LockFile

namespace Lock

/-- What is reported about a reconciliation. -/
def reconcileEvent (old : Lock) (p : Project) (siblings : List Sibling) : Event :=
  let new := old.reconcile p siblings
  let recomputed := old.recomputed p
  .reconciled p.name recomputed.size (old.tracked \ recomputed).size new.locked.size new.empty.size

end Lock

namespace LockFile

/-- What is reported about an update. -/
def updateEvents (text : Text) (p : Project) (siblings : List Sibling) : List Event :=
  if text.isAllBlank then []
  else dropEvents text ++ [(parse text).lock.reconcileEvent p siblings]

end LockFile

/-- What an update makes of a text. -/
structure Revision where
  text : Text
  changed : Bool
  deriving DecidableEq, Repr

/-- The text after an update, and whether it is another one. -/
def LockFile.revise (text : Text) (p : Project) (siblings : List Sibling) :
    Except UnwritableEntry Revision :=
  (LockFile.update text p siblings).map fun
    | none => ⟨text, false⟩
    | some new => ⟨new, true⟩

end Lockstep
