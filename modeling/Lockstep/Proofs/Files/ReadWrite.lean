import Lockstep.Files.Disk

/-!
# Lockstep — reading what was written

Other contents for a file change nothing but these contents: the same names are
beside each other in every directory (`outline_setFile`), so that each path still
leads where it led (`resolve_write`), and what is read there are the new contents
(`read_write`).
-/

namespace Lockstep

-- ---------------------------------------------------------------------------
-- Entries
-- ---------------------------------------------------------------------------

namespace Entry

/-- The entry with other contents for the file below it that names lead to. -/
def setFile (content : List UInt8) (names : List Text) : Entry → Entry
  | .file old => .file (if names = [] then content else old)
  | .folder inside => .folder (inside.setFile content names)

/-- The names in a directory; a file has none to show. -/
def outline : Entry → Option (List Text)
  | .file _ => none
  | .folder inside => some inside.names

/-- What names lead to from an entry; no names lead to the entry itself, and none go
on from a file. -/
def at? : Entry → List Text → Option Entry
  | e, [] => some e
  | .file _, _ :: _ => none
  | .folder inside, name :: rest => inside.at? (name :: rest)

theorem outline_setFile (content : List UInt8) (names : List Text) (e : Entry) :
    (e.setFile content names).outline = e.outline := by
  cases e with
  | file old => rfl
  | folder inside => rw [setFile, outline, outline, Listing.names_setFile]

end Entry

-- ---------------------------------------------------------------------------
-- Directories
-- ---------------------------------------------------------------------------

namespace Listing

/-- No names lead to the directory itself, which has no contents of its own to be replaced. -/
theorem setFile_nil (content : List UInt8) (l : Listing) : l.setFile content [] = l := by
  cases l <;> rfl

/-- In the directory where a write begins, the first name leads to the entry with
the rest of the write carried out below it. Only the first entry of this name is
written, and it is the one that is found. -/
theorem get?_setFile_self (content : List UInt8) (l : Listing) (name : Text) (names : List Text) :
    (l.setFile content (name :: names)).get? name = (l.get? name).map (Entry.setFile content names) := by
  induction l with
  | nil => rfl
  | file n old rest ih =>
    by_cases h : n = name
    · simp [setFile, get?, h, Entry.setFile]
    · simp [setFile, get?, h, ih]
  | folder n inside rest _ ih =>
    by_cases h : n = name
    · simp [setFile, get?, h, Entry.setFile]
    · simp [setFile, get?, h, ih]

/-- A write below one name is not seen at any other name of the same directory. -/
theorem get?_setFile_of_ne (content : List UInt8) (l : Listing) {name other : Text}
    (names : List Text) (hne : name ≠ other) :
    (l.setFile content (name :: names)).get? other = l.get? other := by
  induction l with
  | nil => rfl
  | file n old rest ih =>
    by_cases h : n = name
    · simp [setFile, get?, h, hne]
    · simp [setFile, get?, h, ih]
  | folder n inside rest _ ih =>
    by_cases h : n = name
    · simp [setFile, get?, h, hne]
    · simp [setFile, get?, h, ih]

/-- What a directory lists is what can be found in it. -/
theorem isSome_get? {l : Listing} {name : Text} : (l.get? name).isSome = true ↔ name ∈ l.names := by
  induction l with
  | nil => simp [get?, names]
  | file n old rest ih =>
    by_cases h : n = name
    · simp [get?, names, h]
    · simp [get?, names, h, Ne.symm h, ih]
  | folder n inside rest _ ih =>
    by_cases h : n = name
    · simp [get?, names, h]
    · simp [get?, names, h, Ne.symm h, ih]

/-- Names are followed one at a time: the first leads to an entry of the directory,
and the others lead on from there. -/
theorem at?_cons (l : Listing) (name : Text) (rest : List Text) :
    l.at? (name :: rest) = (l.get? name).bind fun e => e.at? rest := by
  cases rest with
  | nil =>
    rw [at?]
    cases l.get? name <;> rfl
  | cons next rest =>
    rw [at?]
    · cases l.get? name with
      | none => rfl
      | some e => cases e <;> rfl
    · exact fun h => absurd h (by simp)

/-- The file that names lead to has the contents that it was given. Nothing is
assumed about the names themselves, since they are known to lead to a file. -/
theorem at?_setFile {l : Listing} {place : List Text} {old : List UInt8} (content : List UInt8)
    (h : l.at? place = some (.file old)) :
    (l.setFile content place).at? place = some (.file content) := by
  -- on the names; each one opens the directory in which the rest of them are written
  induction place generalizing l with
  | nil => exact absurd h (by simp [at?])
  | cons name rest ih =>
    rw [at?_cons, Option.bind_eq_some_iff] at h
    obtain ⟨e, hGet, he⟩ := h
    rw [at?_cons, get?_setFile_self, hGet]
    cases rest with
    | nil =>
      obtain rfl := Option.some.inj he
      rfl
    | cons next rest =>
      cases e with
      | file content => exact absurd he (by simp [Entry.at?])
      | folder inside => exact ih he

/-- No directory has other names after a file was given other contents, and no file
became a directory: whatever the names lead to, its outline is the one it had.
This is all that resolving a path looks at. -/
theorem outline_setFile (content : List UInt8) (l : Listing) (place names : List Text) :
    ((l.setFile content place).at? names).map Entry.outline = (l.at? names).map Entry.outline := by
  induction names generalizing l place with
  | nil => simp only [at?, Option.map_some, Entry.outline, names_setFile]
  | cons first rest ih =>
    cases place with
    | nil => rw [setFile_nil]
    | cons name below =>
      by_cases hFirst : name = first
      · subst hFirst
        rw [at?_cons, at?_cons, get?_setFile_self]
        cases l.get? name with
        | none => rfl
        | some e =>
          cases rest with
          | nil => exact congrArg some (Entry.outline_setFile content below e)
          | cons next rest =>
            cases e with
            | file old => rfl
            | folder inside => exact ih inside below
      · rw [at?_cons, at?_cons, get?_setFile_of_ne content l below hFirst]

end Listing

-- ---------------------------------------------------------------------------
-- The disk
-- ---------------------------------------------------------------------------

namespace Disk

/-- Names lead through listings with the same outline to the same place, since a
walk looks at nothing but whether there is a directory and which names it has. -/
theorem walk_congr {l l' : Listing}
    (h : ∀ place, (l'.at? place).map Entry.outline = (l.at? place).map Entry.outline)
    (names place : List Text) : walk l' place names = walk l place names := by
  induction names generalizing place with
  | nil => rfl
  | cons name rest ih =>
    have hPlace := h place
    unfold walk
    cases hOld : l.at? place with
    | none =>
      rw [hOld, Option.map_none, Option.map_eq_none_iff] at hPlace
      rw [hPlace]
    | some e =>
      rw [hOld, Option.map_some] at hPlace
      obtain ⟨e', hNew, hOutline⟩ := Option.map_eq_some_iff.1 hPlace
      rw [hNew]
      cases e with
      -- a directory has names and a file has none, so that the kinds of the two entries agree
      | file old =>
        cases e' with
        | file old' => rfl
        | folder inside' => exact absurd hOutline (by simp [Entry.outline])
      | folder inside =>
        cases e' with
        | file old' => exact absurd hOutline (by simp [Entry.outline])
        | folder inside' =>
          have hNames : inside'.names = inside.names := Option.some.inj hOutline
          have hSome : (inside'.get? name).isSome = (inside.get? name).isSome := by
            rw [Bool.eq_iff_iff, Listing.isSome_get?, Listing.isSome_get?, hNames]
          simp only [ih, hSome]

/-- Each path leads after a write to where it led before it. With this the places of
a disk can be spoken of while it is being written. -/
theorem resolve_write (d : Disk) (p : Path) (content : List UInt8) (t : Text) :
    (d.write p content).resolve t = d.resolve t := by
  unfold write
  split
  · rfl
  · next place hPlace =>
    unfold resolve
    simp only [walk_congr (Listing.outline_setFile content d.root place)]

variable {d : Disk} {p : Path} {old : List UInt8}

/-- Reading succeeds if the path leads to a place and a file is there. -/
theorem read_eq_ok_iff {content : List UInt8} :
    d.read p = .ok content ↔
      ∃ place, d.resolve p.text = .ok place ∧ d.root.at? place = some (.file content) := by
  unfold read entry
  cases d.resolve p.text with
  | error fault => simp
  | ok place =>
    cases hat : d.root.at? place with
    | none => simp [hat]
    | some e => cases e <;> simp [hat]

/-- A file that can be read has, once written, the contents it was written with. -/
theorem read_write (h : d.read p = .ok old) (content : List UInt8) :
    (d.write p content).read p = .ok content := by
  obtain ⟨place, hPlace, hat⟩ := read_eq_ok_iff.1 h
  refine read_eq_ok_iff.2 ⟨place, ?_, ?_⟩
  · rw [resolve_write, hPlace]
  · have hRoot : (d.write p content).root = d.root.setFile content place := by
      rw [write, hPlace]
    rw [hRoot]
    exact Listing.at?_setFile content hat

end Disk

end Lockstep
