import Lockstep.Discovery
import Lockstep.Text.Basic
import Lockstep.Text.Utf8
import Lockstep.Update

/-!
# Lockstep — lock files on disk

An update of a file has two steps. The first reads the file and plans what to do
(`Job.plan`); the second does it (`Job.carryOut`). Nothing but the second step
changes the disk, and only if the lock file is not in step and is to be written.

A file that cannot be read, or is no text, is left alone; it does not stop the
update of others. A path that no file can have is an error of its own. So is a new
text that cannot be encoded, for half of a surrogate pair in it: the file has been
opened for writing by then, and is left empty.
-/

namespace Lockstep

-- ---------------------------------------------------------------------------
-- Reading
-- ---------------------------------------------------------------------------

/-- Why a lock file is not read. -/
inductive Unreadable where
  | file (path : Path) (error : FileError)
  | notText (path : Path) (error : Utf8.DecodeError)
  deriving DecidableEq, Repr

/-- Whether it is reported as a fault of the lock file. -/
def Unreadable.isReported : Unreadable → Bool
  | .file _ error => error.fault.isReported
  | .notText _ _ => true

/-- What is reported about a lock file that is not read. -/
def Unreadable.message : Unreadable → Text
  | .file path error =>
    if error.fault.isReported then "cannot read ".text ++ path.text ++ ": ".text ++ error.message
    else error.message
  | .notText path error =>
    path.text ++ " is not valid UTF-8: ".text ++ error.reason.describe.text

/-- The text of a lock file, with a line feed at the end of each line. -/
def LockFile.load (d : Disk) (p : Path) : Except Unreadable Text :=
  match d.read p with
  | .error e => .error (.file p e)
  | .ok bytes =>
    match Utf8.decode bytes with
    | .error e => .error (.notText p e)
    | .ok t => .ok t.unifyLineEnds

-- ---------------------------------------------------------------------------
-- Jobs and plans
-- ---------------------------------------------------------------------------

/-- A lock file and the project it belongs to. -/
structure Job where
  path : Path
  project : Project
  deriving DecidableEq, Repr

/-- What is to be done about a lock file, after it has been read. -/
inductive Plan where
  /-- It is not named as lock files are. -/
  | refuse
  /-- It cannot be read, and is left alone. -/
  | skip (why : Unreadable)
  /-- No file can have its path. -/
  | abort (why : Unreadable)
  /-- Its text is in step. -/
  | keep (text : Text)
  /-- Its text is not in step with the project; the new one is. -/
  | replace (old new : Text)
  /-- The new text has an entry that cannot be written. -/
  | fail (old : Text) (why : UnwritableEntry)
  deriving DecidableEq, Repr

/-- Why an update of a file has no result. -/
inductive UpdateError where
  | notLockFile (path : Path)
  | unreadable (why : Unreadable)
  | unwritable (error : UnwritableEntry)
  /-- The new text has letters without bytes. -/
  | noBytes (error : Utf8.EncodeError)
  deriving DecidableEq, Repr

/-- What is reported about an update without a result. -/
def UpdateError.message : UpdateError → Text
  | .notLockFile path => "not a Gradle lock file: ".text ++ path.text
  | .unreadable why => why.message
  | .unwritable error => error.message
  | .noBytes error => error.message

/-- The outcome of an update of a file. -/
structure FileResult where
  path : Path
  text : Text
  changed : Bool
  skipped : Bool
  deriving DecidableEq, Repr

namespace Job

/-- Reads the file and plans what to do about it. -/
def plan (j : Job) (siblings : List Sibling) (d : Disk) : Plan :=
  if !isLockFile j.path then .refuse
  else
    match LockFile.load d j.path with
    | .error why => if why.isReported then .skip why else .abort why
    | .ok text =>
      match LockFile.update text j.project siblings with
      | .error why => .fail text why
      | .ok none => .keep text
      | .ok (some new) => .replace text new

/-- The disk after a plan, which changes it only if it is to be written. A new text
that cannot be encoded leaves the file empty. -/
def carryOut (j : Job) (write : Bool) (d : Disk) : Plan → Disk
  | .replace _ new => if write then d.write j.path (Utf8.bytesOf new) else d
  | _ => d

/-- The result of a new text, unless it was to be written and has no bytes. -/
def resultOfNew (j : Job) (write : Bool) (new : Text) : Except UpdateError FileResult :=
  match write, Utf8.encode new with
  | true, .error e => .error (.noBytes e)
  | _, _ => .ok ⟨j.path, new, true, false⟩

/-- What a plan means for the one who asked, once it is carried out. -/
def result (j : Job) (write : Bool) : Plan → Except UpdateError FileResult
  | .refuse => .error (.notLockFile j.path)
  | .skip _ => .ok ⟨j.path, [], false, true⟩
  | .abort why => .error (.unreadable why)
  | .keep text => .ok ⟨j.path, text, false, false⟩
  | .replace _ new => j.resultOfNew write new
  | .fail _ why => .error (.unwritable why)

/-- What is reported about a plan and its execution. -/
def events (j : Job) (siblings : List Sibling) (write : Bool) : Plan → List Event
  | .refuse => []
  | .skip why => [.unreadable j.path.text why.message]
  | .abort _ => []
  | .keep text =>
    LockFile.updateEvents text j.project siblings ++ [.unchanged j.path.text j.project.name]
  | .replace old new =>
    LockFile.updateEvents old j.project siblings ++
      match j.resultOfNew write new with
      | .error _ => []
      | .ok _ =>
        [if write then .written j.path.text j.project.name else .outdated j.path.text j.project.name]
  | .fail old _ => LockFile.updateEvents old j.project siblings

/-- Both steps of an update, one right after the other. -/
def run (j : Job) (siblings : List Sibling) (write : Bool) (d : Disk) :
    Except UpdateError FileResult × Disk :=
  let p := j.plan siblings d
  (j.result write p, j.carryOut write d p)

end Job

end Lockstep
