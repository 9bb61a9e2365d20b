import Lockstep.Lock
import Lockstep.LockFile.Line

/-!
# Lockstep — reading lock files

A lock file is its comments and its lock. Reading never fails: what is not
understood is left out and reported by its line number (`droppedLines`).

Only a line feed ends a line, and one carriage return before it does not count;
all other line breaks of Unicode belong to the line.
-/

namespace Lockstep

/-- The comments of a lock file, and the lock that it records. -/
structure LockFile where
  comments : List Text := []
  lock : Lock := {}
  deriving DecidableEq, Repr, Inhabited

namespace LockFile

/-- The lines of a text, each without the carriage return at its end. -/
def linesOf (text : Text) : List Text :=
  (text.splitOn (char '\n')).map (Text.dropLastChar (char '\r'))

/-- The lock file with one more line. -/
def addLine (f : LockFile) : Line → LockFile
  | .comment text => { f with comments := f.comments ++ [text] }
  | .blank => f
  | .empty names => { f with lock := { f.lock with empty := f.lock.empty ∪ names } }
  | .entry c names => { f with lock := { f.lock with locked := f.lock.locked.addAll c names } }
  | .dropped _ => f

/-- The lock file that a text holds. -/
def parse (text : Text) : LockFile :=
  ((linesOf text).map Line.read).foldl addLine {}

/-- The numbers, from 1, of the lines that are dropped, and why they are. -/
def droppedLines (text : Text) : List (Nat × DropReason) :=
  ((linesOf text).zipIdx 1).filterMap fun (line, number) =>
    (Line.read line).dropReason?.map fun reason => (number, reason)

end LockFile

end Lockstep
