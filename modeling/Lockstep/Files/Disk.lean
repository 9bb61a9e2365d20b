import Lockstep.Files.Listing

/-!
# Lockstep — the disk

A tree of directories together with the directory in which the program works. A
path leads through the tree name by name: two dots go up, and every name but the
last must be that of a directory. Names and paths have a greatest length; no path
holds a NUL, or a letter that has no bytes.

* `resolve`  — the place that a path leads to, as names from the root.
* `read`     — the contents of a file.
* `write`    — other contents for an existing file.
* `addFile`, `addFolder`, `remove` — changes of the tree itself.
-/

namespace Lockstep

/-- A proper tree of directories, and the working directory by the names that lead to it. -/
structure Disk where
  root : Listing := .nil
  working : List Text := []
  proper : root.isProper = true := by rfl
  deriving DecidableEq, Repr

/-- Why a path does not lead to what was asked for. -/
inductive PathFault where
  | notFound
  | notDirectory
  | isDirectory
  | tooLong
  /-- The path holds a NUL. -/
  | nul
  /-- The path holds letters without bytes. -/
  | noBytes (error : Utf8.EncodeError)
  deriving DecidableEq, Repr

/-- A path, and what is wrong with it. -/
structure FileError where
  fault : PathFault
  path : Text
  deriving DecidableEq, Repr

/-- The number of a fault, if the file system has one for it. -/
def PathFault.number? : PathFault → Option Nat
  | .notFound => some 2
  | .notDirectory => some 20
  | .isDirectory => some 21
  | .tooLong => some 36
  | .nul => none
  | .noBytes _ => none

/-- The words for a fault. -/
def PathFault.describe : PathFault → Text
  | .notFound => "No such file or directory".text
  | .notDirectory => "Not a directory".text
  | .isDirectory => "Is a directory".text
  | .tooLong => "File name too long".text
  | .nul => "embedded null byte".text
  | .noBytes error => error.message

/-- Whether the file system reports the fault; a path that it does not even take
ends the run. -/
def PathFault.isReported (f : PathFault) : Bool := f.number?.isSome

/-- What is reported about a path. -/
def FileError.message (e : FileError) : Text :=
  match e.fault.number? with
  | some number => s!"[Errno {number}] ".text ++ e.fault.describe ++ ": ".text ++ e.path.quoted
  | none => e.fault.describe

/-- The greatest number of bytes in a path. -/
def maxPathBytes : Nat := 4095

/-- Whether a text is too long to be a path. -/
def isOverlong (t : Text) : Bool := maxPathBytes < Utf8.nameSize t

namespace Disk

/-- Follows names from a place, which must be a directory as long as a name is left. -/
def walk (root : Listing) (place : List Text) : List Text → Except PathFault (List Text)
  | [] => .ok place
  | name :: rest =>
    match root.at? place with
    | some (.folder inside) =>
      if name.isEmpty || name == [char '.'] then walk root place rest
      else if name = [char '.', char '.'] then walk root place.dropLast rest
      else if maxNameBytes < Utf8.nameSize name then .error .tooLong
      else if (inside.get? name).isSome then walk root (place ++ [name]) rest
      else .error .notFound
    | some (.file _) => .error .notDirectory
    | none => .error .notFound

/-- The place that the text of a path leads to, from the root. -/
def resolve (d : Disk) (t : Text) : Except PathFault (List Text) :=
  match Utf8.encodeName t with
  | .error e => .error (.noBytes e)
  | .ok _ =>
    if t.contains (char '\x00') then .error .nul
    else if t.isEmpty then .error .notFound
    else if isOverlong t then .error .tooLong
    else walk d.root (if t.head? = some (char '/') then [] else d.working) (t.splitOn (char '/'))

/-- What the text of a path leads to. -/
def entry (d : Disk) (t : Text) : Except PathFault Entry :=
  match d.resolve t with
  | .error fault => .error fault
  | .ok place =>
    match d.root.at? place with
    | some e => .ok e
    | none => .error .notFound

/-- What a directory holds, if the text leads to one. -/
def folder? (d : Disk) (t : Text) : Option Listing :=
  match d.entry t with
  | .ok (.folder inside) => some inside
  | _ => none

/-- The contents of a file. -/
def read (d : Disk) (p : Path) : Except FileError (List UInt8) :=
  match d.entry p.text with
  | .error fault => .error ⟨fault, p.text⟩
  | .ok (.folder _) => .error ⟨.isDirectory, p.text⟩
  | .ok (.file content) => .ok content

/-- The disk with other contents for a file; nothing changes if there is no such file. -/
def write (d : Disk) (p : Path) (content : List UInt8) : Disk :=
  match d.resolve p.text with
  | .error _ => d
  | .ok place =>
    { d with root := d.root.setFile content place, proper := Listing.isProper_setFile d.proper content place }

/-- The disk with a file at a place, and the directories on the way; names that no
file can have make none. -/
def addFile (d : Disk) (place : List Text) (content : List UInt8) : Disk :=
  if h : place.all isFileName then
    { d with root := d.root.create (.file content) place, proper := Listing.isProper_create d.proper h rfl }
  else d

/-- The disk with a directory at a place, unless something is there. -/
def addFolder (d : Disk) (place : List Text) : Disk :=
  if h : (d.root.at? place).isNone ∧ place.all isFileName then
    { d with root := d.root.create (.folder .nil) place, proper := Listing.isProper_create d.proper h.2 rfl }
  else d

/-- The disk without what is at a place. -/
def remove (d : Disk) (place : List Text) : Disk :=
  { d with root := d.root.remove place, proper := Listing.isProper_remove d.proper place }

/-- The working directory as a path. -/
def workingPath (d : Disk) : Path := Path.root.append d.working

/-- The path from the root that the text of a path leads to. -/
def absolute (d : Disk) (t : Text) : Except PathFault Path :=
  (d.resolve t).map fun place => Path.root.append place

end Disk

end Lockstep
