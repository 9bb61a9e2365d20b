import Lockstep.Proofs.Discovery.Search

/-!
# Lockstep — the lock files that are found

What a search finds below a directory that is given by its absolute path: each path
leads to where its names say, and different ones lead to different files (`IsFound`,
`discover_found`).
-/

namespace Lockstep

variable {d : Disk} {root p q : Path} {inside : Listing} {paths : List Path}

/-- A path that leads from a root to a lock file below it. -/
structure IsFound (d : Disk) (root p : Path) : Prop where
  anchor : p.anchor = .root
  named : isLockFile p = true
  below : ∃ names, names ≠ [] ∧ p.parts = root.parts ++ names
  leads : d.resolve p.text = .ok p.parts
  file : ∃ content, d.root.at? p.parts = some (.file content)

/-- Files that were found are told apart by the names that lead to them. -/
theorem IsFound.eq_of_parts_eq (hp : IsFound d root p) (hq : IsFound d root q)
    (h : p.parts = q.parts) : p = q :=
  Path.eq_of_parts_eq (hp.anchor.trans hq.anchor.symm) h

/-- Different files that were found are in different places. -/
theorem IsFound.not_samePlace (hp : IsFound d root p) (hq : IsFound d root q) (hne : p ≠ q) :
    ¬ ∃ place, d.resolve p.text = .ok place ∧ d.resolve q.text = .ok place := by
  rintro ⟨place, hPlace, hPlace'⟩
  rw [hp.leads, Except.ok.injEq] at hPlace
  rw [hq.leads, Except.ok.injEq, ← hPlace] at hPlace'
  exact hne (hp.eq_of_parts_eq hq hPlace'.symm)

theorem IsFound.isPathText (hp : IsFound d root p) : IsPathText p.text :=
  Disk.isPathText_of_resolve_eq_ok hp.leads

theorem IsFound.exists_read_eq_ok (hp : IsFound d root p) : ∃ bytes, d.read p = .ok bytes := by
  obtain ⟨content, hContent⟩ := hp.file
  exact ⟨content, Disk.read_eq_ok_iff.2 ⟨p.parts, hp.leads, hContent⟩⟩

/-- A directory by its absolute path. -/
structure IsFolder (d : Disk) (root : Path) (inside : Listing) : Prop where
  anchor : root.anchor = .root
  holds : d.root.at? root.parts = some (.folder inside)

/-- Whatever text leads to a directory, the absolute path of the directory leads there. -/
theorem isFolder_of_entry {t : Text} (h : d.entry t = .ok (.folder inside)) :
    ∃ root, d.absolute t = .ok root ∧ IsFolder d root inside := by
  obtain ⟨place, hPlace, hat⟩ := Disk.entry_eq_ok_iff.1 h
  have hParts : (Path.root.append place).parts = place := Path.parts_append fun n hn =>
    isPathName_of_isFileName (Listing.isFileName_of_at? d.proper hat n hn)
  refine ⟨Path.root.append place, by rw [Disk.absolute, hPlace]; rfl, rfl, ?_⟩
  rw [hParts, hat]

/-- The absolute path of a directory is made of the names that lead to it. -/
theorem IsFolder.root_append_parts (h : IsFolder d root inside) :
    Path.root.append root.parts = root := by
  refine Path.eq_of_parts_eq h.anchor.symm ?_
  exact Path.parts_append fun _ => Path.isPathName_of_mem_parts

/-- A directory is found by its absolute path, unless this is too long. -/
theorem entry_eq_of_isFolder (h : IsFolder d root inside) (hLong : isOverlong root.text = false) :
    d.entry root.text = .ok (.folder inside) :=
  Disk.entry_eq_ok_iff.2 ⟨root.parts, Disk.resolve_text_of_at? h.anchor h.holds hLong, h.holds⟩

/-- A directory whose path is too long cannot be searched. -/
theorem entry_eq_of_discover_eq_ok (h : IsFolder d root inside)
    (hPaths : discover d root = .ok paths) : d.entry root.text = .ok (.folder inside) := by
  refine entry_eq_of_isFolder h (Bool.eq_false_iff.2 fun hLong => ?_)
  have hEntry : d.entry root.text = .error .tooLong := by
    rw [Disk.entry, Disk.resolve_eq_tooLong (Disk.isPathText_text_of_at? h.holds) hLong]
  simp [discover, hEntry] at hPaths

/-- All that a search finds below a directory are lock files there, each once. That
a path leads to where its names say takes a root without two dots, as absolute paths
of directories are. -/
theorem discover_found (h : IsFolder d root inside) (hPaths : discover d root = .ok paths) :
    paths.Nodup ∧ ∀ p ∈ paths, IsFound d root p := by
  have hEntry := entry_eq_of_discover_eq_ok h hPaths
  obtain ⟨-, hSearch, hFinds⟩ := finds_of_discover hEntry hPaths
  refine ⟨hFinds.nodup, fun p hp => ?_⟩
  obtain ⟨hAnchor, names, hParts, hHolds⟩ := (hFinds.mem_iff p).1 hp
  obtain ⟨content, hContent⟩ := hHolds.file
  -- the names of the path, from the root of the disk on, lead to the file
  have hat : d.root.at? p.parts = some (.file content) := by
    rw [hParts, Listing.at?_append, h.holds, Option.bind_some, Entry.at?_folder, hContent]
  -- it can be read at its path, which is therefore not too long
  have hShort : isOverlong p.text = false := by
    obtain ⟨_, hLeads⟩ := hFinds.leads p hp
    obtain ⟨_, hPlace, -⟩ := Disk.entry_eq_ok_iff.1 hLeads
    exact Disk.isOverlong_of_resolve_eq_ok hPlace
  have hRoot : p.anchor = .root := hAnchor.trans h.anchor
  refine ⟨hRoot, ?_, ⟨names, hHolds.ne_nil, hParts⟩, Disk.resolve_text_of_at? hRoot hat hShort,
    ⟨content, hat⟩⟩
  rw [isLockFile, hFinds.name_eq hp]
  exact beq_self_eq_true lockFileName

-- ---------------------------------------------------------------------------
-- Modules
-- ---------------------------------------------------------------------------

/-- The module path of a lock file that was found is made of names. -/
theorem IsFound.exists_moduleOf (hp : IsFound d root p) (hRoot : root.anchor = .root) :
    ∃ names, (∀ n ∈ names, isPathName n = true) ∧
      moduleOf root p = .ok (Text.joinWith [char '/'] names) := by
  obtain ⟨names, hne, hParts⟩ := hp.below
  refine ⟨names.dropLast, fun n hn => ?_, moduleOf_eq (hp.anchor.trans hRoot.symm) hne hParts⟩
  exact Path.isPathName_of_parts_eq hParts n (List.dropLast_subset names hn)

end Lockstep
