import Lockstep.Files.Disk

/-!
# Lockstep — finding lock files

All lock files below a directory, at any depth, except those below a directory
that never holds a module's own lock file. Only the directories between the root
and the file count for that, not the root itself. The files come in the order of
the names that lead to them, compared name by name. All directories are
searched, also those whose files do not count, and it is an error if the path of a
lock file in one of them would be too long.

* `Listing.lockFiles` — the names that lead to each lock file of a directory.
* `lockFilePlaces`    — the paths at which lock files are looked for.
* `discover`          — the paths of those there are, in order.
* `moduleOf`          — the module path of a lock file.
-/

namespace Lockstep

/-- The name of all lock files. -/
def lockFileName : Text := "gradle.lockfile".text

/-- The directories that hold no module. -/
def skippedFolders : List Text :=
  [".git", ".gradle", "build", "node_modules"].map String.text

namespace Listing

/-- The names that lead to each lock file, in the order of the listing. -/
def lockFiles : Listing → List (List Text)
  | nil => []
  | file n _ rest => if n = lockFileName then [n] :: rest.lockFiles else rest.lockFiles
  | folder n inside rest =>
    if n ∈ skippedFolders then rest.lockFiles
    else inside.lockFiles.map (n :: ·) ++ rest.lockFiles

end Listing

/-- Lists of names in increasing order, compared name by name. -/
def sortByNames (paths : List (List Text)) : List (List Text) :=
  Sorting.sortBy Sorting.upTo paths

/-- Where a lock file of each directory would be: of the root, then of all below it. -/
def lockFilePlaces (root : Path) (inside : Listing) : List Path :=
  ([] :: inside.folders).map fun names => root.append (names ++ [lockFileName])

/-- The lock files below a directory, in order; none if there is no such directory.
Of the places that are too long for a path the first is reported. -/
def discover (d : Disk) (root : Path) : Except FileError (List Path) :=
  match d.entry root.text with
  | .ok (.folder inside) =>
    match (lockFilePlaces root inside).find? (isOverlong ·.text) with
    | some p => .error ⟨.tooLong, p.text⟩
    | none => .ok ((sortByNames inside.lockFiles).map root.append)
  | .error .tooLong => .error ⟨.tooLong, root.text⟩
  | _ => .ok []

-- ---------------------------------------------------------------------------
-- Modules of lock files
-- ---------------------------------------------------------------------------

/-- A directory that does not lie below a root. -/
structure OutsideRoot where
  folder : Path
  root : Path
  deriving DecidableEq, Repr

/-- What is reported about a directory outside a root. An empty relative root has no text. -/
def OutsideRoot.message (e : OutsideRoot) : Text :=
  let root : Text := if e.root = Path.here then [] else e.root.text
  e.folder.text.quoted ++ " is not in the subpath of ".text ++ root.quoted ++
    " OR one path is relative and the other is absolute.".text

/-- The module path of a lock file: the names that lead from the root to its directory. -/
def moduleOf (root lock : Path) : Except OutsideRoot Text :=
  match lock.parent.relativeTo? root with
  | some names => .ok (Text.joinWith [char '/'] names)
  | none => .error ⟨lock.parent, root⟩

/-- Whether a path is named as lock files are. -/
def isLockFile (p : Path) : Bool := p.name == lockFileName

end Lockstep
