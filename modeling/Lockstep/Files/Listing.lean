import Lockstep.Files.Path
import Lockstep.Text.Utf8

/-!
# Lockstep — directories

What a directory holds: files and directories, each with a name. A listing is
the one of them after the other, so that it is a tree by itself and everything
about it goes by induction on it.

A listing is proper if at every depth each entry has a name that a file can have
and that no other entry beside it has. All changes keep that.

* `at?`     — the entry that names lead to.
* `setFile` — gives an existing file other contents.
* `create`, `remove` — make or remove an entry.
* `files`   — all files at any depth, with the names that lead to them.
* `folders` — all directories at any depth, by the names that lead to them.
* `changesSince` — the files in which two listings differ.
-/

namespace Lockstep

/-- The greatest number of bytes in the name of a file. -/
def maxNameBytes : Nat := 255

/-- Whether a text can be the name of a file or directory. -/
def isFileName (t : Text) : Bool :=
  isPathName t && t != [char '.', char '.'] && !t.contains (char '\x00') &&
    t.all (fun c => (Utf8.nameBytes? c).isSome) && Utf8.nameSize t ≤ maxNameBytes

/-- The entries of a directory. -/
inductive Listing where
  | nil
  | file (name : Text) (content : List UInt8) (rest : Listing)
  | folder (name : Text) (inside rest : Listing)
  deriving DecidableEq, Repr, Inhabited

/-- What a name in a directory, or the directory itself, stands for. -/
inductive Entry where
  | file (content : List UInt8)
  | folder (inside : Listing)
  deriving DecidableEq, Repr

namespace Listing

-- ---------------------------------------------------------------------------
-- Looking
-- ---------------------------------------------------------------------------

/-- The entry of a name. -/
def get? : Listing → Text → Option Entry
  | nil, _ => none
  | file n content rest, name => if n = name then some (.file content) else rest.get? name
  | folder n inside rest, name => if n = name then some (.folder inside) else rest.get? name

/-- The entry that names lead to, one below the other; no names lead to the directory itself. -/
def at? (l : Listing) : List Text → Option Entry
  | [] => some (.folder l)
  | [name] => l.get? name
  | name :: rest =>
    match l.get? name with
    | some (.folder inside) => inside.at? rest
    | _ => none

/-- All files at any depth, with the names that lead to them. -/
def files : Listing → List (List Text × List UInt8)
  | nil => []
  | file n content rest => ([n], content) :: rest.files
  | folder n inside rest => inside.files.map (fun (names, content) => (n :: names, content)) ++ rest.files

/-- The directories at any depth, each before those in it, by the names that lead to them. -/
def folders : Listing → List (List Text)
  | nil => []
  | file _ _ rest => rest.folders
  | folder n inside rest => [n] :: inside.folders.map (n :: ·) ++ rest.folders

/-- The files of a listing that another one does not have with the same contents. -/
def changesSince (old new : Listing) : List (List Text × List UInt8) :=
  new.files.filter fun (names, content) => old.at? names != some (.file content)

-- ---------------------------------------------------------------------------
-- Changing
-- ---------------------------------------------------------------------------

/-- Gives the file that names lead to other contents; nothing changes if there is none. -/
def setFile (content : List UInt8) : Listing → List Text → Listing
  | nil, _ => nil
  | l, [] => l
  | file n old rest, name :: names =>
    if n = name then file n (if names = [] then content else old) rest
    else file n old (rest.setFile content (name :: names))
  | folder n inside rest, name :: names =>
    if n = name then folder n (inside.setFile content names) rest
    else folder n inside (rest.setFile content (name :: names))

/-- The listing that begins with an entry. -/
def cons (name : Text) : Entry → Listing → Listing
  | .file content, rest => file name content rest
  | .folder inside, rest => folder name inside rest

/-- Puts an entry of a name in place of any it has, or at the end. -/
def put (name : Text) (e : Entry) : Listing → Listing
  | nil => cons name e nil
  | file n old rest => if n = name then cons name e rest else file n old (rest.put name e)
  | folder n inside rest => if n = name then cons name e rest else folder n inside (rest.put name e)

/-- Puts an entry where names lead to, making the directories on the way. -/
def create (e : Entry) (l : Listing) : List Text → Listing
  | [] => l
  | [name] => l.put name e
  | name :: rest =>
    match l.get? name with
    | some (.folder inside) => l.put name (.folder (inside.create e rest))
    | _ => l.put name (.folder (nil.create e rest))

/-- The listing without the entry of a name. -/
def drop (name : Text) : Listing → Listing
  | nil => nil
  | file n content rest => if n = name then rest else file n content (rest.drop name)
  | folder n inside rest => if n = name then rest else folder n inside (rest.drop name)

/-- Removes the entry that names lead to. -/
def remove (l : Listing) : List Text → Listing
  | [] => l
  | [name] => l.drop name
  | name :: rest =>
    match l.get? name with
    | some (.folder inside) => l.put name (.folder (inside.remove rest))
    | _ => l

-- ---------------------------------------------------------------------------
-- Proper listings
-- ---------------------------------------------------------------------------

/-- The names of the entries, in order. -/
def names : Listing → List Text
  | nil => []
  | file n _ rest => n :: rest.names
  | folder n _ rest => n :: rest.names

/-- Whether at every depth all names are names of files, and no two beside each
other are the same. -/
def isProper : Listing → Bool
  | nil => true
  | file n _ rest => isFileName n && !rest.names.contains n && rest.isProper
  | folder n inside rest =>
    isFileName n && !rest.names.contains n && inside.isProper && rest.isProper

end Listing

/-- Whether a directory holds what a directory can hold. -/
def Entry.isProper : Entry → Bool
  | .file _ => true
  | .folder inside => inside.isProper

namespace Listing

@[simp] theorem names_cons (name : Text) (e : Entry) (l : Listing) :
    (cons name e l).names = name :: l.names := by
  cases e <;> rfl

@[simp] theorem isProper_cons (name : Text) (e : Entry) (l : Listing) :
    (cons name e l).isProper = (isFileName name && !l.names.contains name && e.isProper && l.isProper) := by
  cases e <;> simp [cons, isProper, Entry.isProper]

theorem names_setFile (content : List UInt8) (l : Listing) (place : List Text) :
    (l.setFile content place).names = l.names := by
  fun_induction setFile content l place <;> simp_all [names]

theorem isProper_setFile {l : Listing} (h : l.isProper) (content : List UInt8) (place : List Text) :
    (l.setFile content place).isProper := by
  fun_induction setFile content l place <;> simp_all [isProper, names_setFile]

theorem names_put (name : Text) (e : Entry) (l : Listing) :
    (l.put name e).names = if name ∈ l.names then l.names else l.names ++ [name] := by
  fun_induction put name e l <;> grind [names, names_cons]

theorem isProper_put {l : Listing} {name : Text} {e : Entry} (h : l.isProper)
    (hName : isFileName name) (he : e.isProper) : (l.put name e).isProper := by
  fun_induction put name e l <;> grind [isProper, names, names_put, isProper_cons]

theorem isProper_of_get? {l : Listing} {name : Text} {e : Entry} (h : l.isProper)
    (he : l.get? name = some e) : e.isProper := by
  fun_induction get? l name <;> grind [isProper, Entry.isProper]

theorem isFileName_of_get? {l : Listing} {name : Text} {e : Entry} (h : l.isProper)
    (he : l.get? name = some e) : isFileName name := by
  fun_induction get? l name <;> grind [isProper]

theorem isProper_create {l : Listing} {e : Entry} {place : List Text} (h : l.isProper)
    (hPlace : place.all isFileName) (he : e.isProper) : (l.create e place).isProper := by
  fun_induction create e l place with
  | case1 => exact h
  | case2 => exact isProper_put h (by simpa using hPlace) he
  | case3 l name rest hRest inside hGet ih =>
    simp only [List.all_cons, Bool.and_eq_true] at hPlace
    exact isProper_put h hPlace.1 (ih (isProper_of_get? h hGet) hPlace.2)
  | case4 l name rest hRest hGet ih =>
    simp only [List.all_cons, Bool.and_eq_true] at hPlace
    exact isProper_put h hPlace.1 (ih rfl hPlace.2)

theorem mem_of_mem_names_drop {l : Listing} {name n : Text} (h : n ∈ (l.drop name).names) :
    n ∈ l.names := by
  fun_induction drop name l <;> grind [names]

theorem isProper_drop {l : Listing} (h : l.isProper) (name : Text) : (l.drop name).isProper := by
  fun_induction drop name l <;> grind [isProper, mem_of_mem_names_drop]

theorem isProper_remove {l : Listing} (h : l.isProper) (place : List Text) :
    (l.remove place).isProper := by
  fun_induction remove l place with
  | case1 => exact h
  | case2 => exact isProper_drop h _
  | case3 l name rest hRest inside hGet ih =>
    exact isProper_put h (isFileName_of_get? h hGet) (ih (isProper_of_get? h hGet))
  | case4 => exact h

end Listing

end Lockstep
