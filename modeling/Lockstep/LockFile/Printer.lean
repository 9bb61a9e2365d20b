import Lockstep.LockFile.Basic

/-!
# Lockstep — writing lock files

The canonical text of a lock file: the comments; an empty line, if there are
both comments and entries; the entries in the order of their coordinates' texts;
and last the line of the configurations with nothing to lock. Names stand in
increasing order. The text ends in a line feed if the text it replaces does.

An entry whose only name is the empty text has no line, and a lock with such an
entry cannot be written.
-/

namespace Lockstep

/-- An entry has no line. -/
structure UnwritableEntry where
  /-- The place of the missing line in the text, from 0. -/
  index : Nat
  deriving DecidableEq, Repr

/-- What is reported about an entry without a line. -/
def UnwritableEntry.message (e : UnwritableEntry) : Text :=
  "sequence item ".text ++ Text.ofNat e.index ++ ": expected str instance, NoneType found".text

namespace LockFile

/-- Names in increasing order, with a comma between two of them. -/
def joinNames (names : List Text) : Text :=
  Text.joinWith [char ','] (Text.sort names)

/-- The line of the configurations with nothing to lock, which is written even without names. -/
def emptyLine (names : List Text) : Text :=
  Line.emptyMark ++ char '=' :: joinNames names

/-- The line of an entry, unless nothing stands on its right side. -/
def entryLine? (c : Coordinate) (names : List Text) : Option Text :=
  let joined := joinNames names
  if joined.isEmpty then none else some (c.text ++ char '=' :: joined)

/-- The lines of a lock file's text; an entry that cannot be written has none. -/
def lines (f : LockFile) : List (Option Text) :=
  let entries := f.lock.entries.map fun e => entryLine? e.1 e.2.toList
  let gap := if f.comments.isEmpty || entries.isEmpty then [] else [some []]
  f.comments.map some ++ gap ++ entries ++ [some (emptyLine f.lock.empty.toList)]

/-- The text of a lock file, in place of a text whose last line feed it keeps. -/
def render (f : LockFile) (replaced : Text) : Except UnwritableEntry Text :=
  match f.lines.findIdx? Option.isNone with
  | some index => .error ⟨index⟩
  | none =>
    let body := Text.joinWith [char '\n'] (f.lines.filterMap id)
    .ok (if replaced.getLast? = some (char '\n') then body ++ [char '\n'] else body)

end LockFile

end Lockstep
