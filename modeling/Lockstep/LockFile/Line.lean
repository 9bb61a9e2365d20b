import Lockstep.LockTable
import Lockstep.NameSet
import Lockstep.Text.Basic

/-!
# Lockstep — lines of a lock file

A line is one of five kinds:

* a comment, which starts with a hash sign and a space;
* a blank line;
* the line of the configurations with nothing to lock, `empty=name,name`;
* an entry, `group:artifact:version=name,name`;
* anything else, which is dropped for one of two reasons.

A line with an equals sign has two sides; more than one equals sign leaves no
way to tell them apart.
-/

namespace Lockstep

/-- Why a line is dropped. -/
inductive DropReason where
  /-- It does not have exactly one equals sign. -/
  | separator
  /-- Its left side is not a coordinate. -/
  | coordinate
  deriving DecidableEq, Repr

/-- What a line of a lock file says. -/
inductive Line where
  | comment (text : Text)
  | blank
  | empty (names : NameSet)
  | entry (coordinate : Coordinate) (names : NameSet)
  | dropped (reason : DropReason)
  deriving DecidableEq, Repr

namespace Line

/-- The left side of the line of configurations with nothing to lock. -/
def emptyMark : Text := "empty".text

/-- What a comment starts with. -/
def commentMark : Text := "# ".text

/-- Whether a line starts as comments do. -/
def isComment (line : Text) : Bool := commentMark.isPrefixOf line

/-- The two sides of a line with exactly one equals sign. -/
def sides? (line : Text) : Option (Text × Text) :=
  match line.splitOn (char '=') with
  | [left, right] => some (left, right)
  | _ => none

/-- The names between the commas of a text, without blanks at their ends; empty ones
do not count. -/
def namesOf (right : Text) : NameSet :=
  NameSet.ofList (((right.splitOn (char ',')).map Text.trim).filter fun n => !n.isEmpty)

/-- The configuration names on the right side of a line. -/
def names (line : Text) : NameSet :=
  match sides? line with
  | some (_, right) => namesOf right
  | none => ∅

/-- The coordinate on the left side of a line, if it is one. -/
def coordinate? (line : Text) : Option Coordinate :=
  (sides? line).bind fun s => Coordinate.ofText? s.1

/-- What a line says. -/
def read (line : Text) : Line :=
  if isComment line then .comment line
  else if line.isAllBlank then .blank
  else
    match sides? line with
    | none => .dropped .separator
    | some (left, right) =>
      if left = emptyMark then .empty (namesOf right)
      else
        match Coordinate.ofText? left with
        | none => .dropped .coordinate
        | some c => .entry c (namesOf right)

/-- The reason for which a line is dropped, if it is. -/
def dropReason? : Line → Option DropReason
  | .dropped reason => some reason
  | _ => none

end Line

end Lockstep
