import Lockstep.Proofs.Discovery.LockFiles
import Lockstep.Proofs.Discovery.ModulePaths
import Lockstep.Proofs.Text.Order

/-!
# Lockstep — what a search finds

A search looks into every directory below its root. It fails iff a path at which it
would look is too long (`IsSearchable`, `discover_eq_error`); otherwise it finds
exactly the lock files of modules, in increasing order (`Finds`, `finds_of_discover`).
What counts is what the root holds, not how its path is written or what leads there
(`discover_exact`). No two of the files belong to one module (`nodup_moduleOf`).
-/

namespace Lockstep

variable {d : Disk} {root : Path} {inside : Listing} {names : List Text} {paths : List Path}

-- ---------------------------------------------------------------------------
-- Where lock files are looked for
-- ---------------------------------------------------------------------------

/-- In no directory below the root is the path of a lock file too long. -/
def IsSearchable (root : Path) (inside : Listing) : Prop :=
  ∀ names below, inside.at? names = some (.folder below) →
    isOverlong (root.append (names ++ [lockFileName])).text = false

/-- What decides about a search are the paths at which it looks for a lock file, one
in each directory. -/
theorem isSearchable_iff (hProper : inside.isProper = true) :
    IsSearchable root inside ↔ ∀ p ∈ lockFilePlaces root inside, isOverlong p.text = false := by
  simp only [lockFilePlaces, List.forall_mem_map, Listing.mem_folders_iff hProper]
  exact forall_congr' fun names =>
    ⟨fun h ⟨below, hBelow⟩ => h below hBelow, fun h below hBelow => h ⟨below, hBelow⟩⟩

/-- The path of a lock file is then not too long, since its directory was looked at. -/
theorem IsSearchable.isOverlong_eq_false (h : IsSearchable root inside)
    (hNames : inside.HoldsLockFile names) : isOverlong (root.append names).text = false := by
  obtain ⟨below, hBelow⟩ := hNames.exists_folder
  obtain ⟨above, rfl⟩ := List.getLast?_eq_some_iff.1 hNames.named
  rw [List.dropLast_concat] at hBelow
  exact h above below hBelow

/-- A search of a directory in which no path is too long finds the lock files in it, sorted. -/
theorem discover_eq_ok (h : d.entry root.text = .ok (.folder inside))
    (hSearch : IsSearchable root inside) :
    discover d root = .ok ((sortByNames inside.lockFiles).map root.append) := by
  have hFind : (lockFilePlaces root inside).find? (isOverlong ·.text) = none := by
    refine List.find?_eq_none.2 fun p hp => ?_
    rw [(isSearchable_iff (Disk.isProper_of_entry_eq_ok h)).1 hSearch p hp]
    exact Bool.false_ne_true
  simp only [discover, h, hFind]

/-- A search that comes upon a path which is too long fails with it. It does so even
if no lock file is there, since it asks for one in each directory. -/
theorem discover_eq_error (h : d.entry root.text = .ok (.folder inside))
    (hSearch : ¬ IsSearchable root inside) :
    ∃ p ∈ lockFilePlaces root inside, isOverlong p.text = true ∧
      discover d root = .error ⟨.tooLong, p.text⟩ := by
  cases hFind : (lockFilePlaces root inside).find? (isOverlong ·.text) with
  | none =>
    refine absurd ((isSearchable_iff (Disk.isProper_of_entry_eq_ok h)).2 fun p hp => ?_) hSearch
    simpa using List.find?_eq_none.1 hFind p hp
  | some p =>
    have hLong := List.find?_some (p := fun q : Path => isOverlong q.text) hFind
    refine ⟨p, List.mem_of_find?_eq_some hFind, hLong, ?_⟩
    simp only [discover, h, hFind]

-- ---------------------------------------------------------------------------
-- What is found
-- ---------------------------------------------------------------------------

/-- Paths of the lock files below a root. -/
structure Finds (d : Disk) (root : Path) (inside : Listing) (paths : List Path) : Prop where
  /-- They are in order, name by name, and each is there once. -/
  increasing : paths.Pairwise fun p q => p.parts < q.parts
  /-- They go on from the root with the names that lead to a lock file in it. -/
  mem_iff : ∀ p, p ∈ paths ↔
    p.anchor = root.anchor ∧ ∃ names, p.parts = root.parts ++ names ∧ inside.HoldsLockFile names
  /-- Each leads to a file. -/
  leads : ∀ p ∈ paths, ∃ content, d.entry p.text = .ok (.file content)

/-- No two of the sorted names are the same, so that they are strictly increasing. -/
theorem strict_sortByNames (hProper : inside.isProper = true) :
    (sortByNames inside.lockFiles).Pairwise (· < ·) :=
  Sorting.strict_sortBy_key (Listing.nodup_lockFiles hProper) fun _ _ _ _ => id

theorem mem_sortByNames (hProper : inside.isProper = true) :
    names ∈ sortByNames inside.lockFiles ↔ inside.HoldsLockFile names :=
  Sorting.mem_sortBy.trans (Listing.mem_lockFiles_iff hProper)

/-- What a search finds are the paths of the lock files, in order, and each leads to
a file. Sorting is by the names below the root, and the paths are in this order
since they begin with the same names. -/
theorem finds_of_isSearchable (h : d.entry root.text = .ok (.folder inside))
    (hSearch : IsSearchable root inside) :
    Finds d root inside ((sortByNames inside.lockFiles).map root.append) := by
  have hProper := Disk.isProper_of_entry_eq_ok h
  have hParts : ∀ {names}, inside.HoldsLockFile names →
      (root.append names).parts = root.parts ++ names := by
    rintro names ⟨⟨content, hContent⟩, -, -⟩
    exact root.parts_append_of_at? hProper hContent
  refine ⟨List.pairwise_map.2 ?_, fun p => ?_, fun p hp => ?_⟩
  · refine (strict_sortByNames hProper).imp_of_mem fun {names names'} hNames hNames' hlt => ?_
    rw [hParts ((mem_sortByNames hProper).1 hNames), hParts ((mem_sortByNames hProper).1 hNames')]
    exact List.append_left_lt hlt
  · -- a path is known by its anchor and its names
    simp only [List.mem_map, mem_sortByNames hProper]
    constructor
    · rintro ⟨names, hNames, rfl⟩
      exact ⟨rfl, names, hParts hNames, hNames⟩
    · rintro ⟨hAnchor, names, hp, hNames⟩
      exact ⟨names, hNames, Path.eq_of_parts_eq hAnchor.symm ((hParts hNames).trans hp.symm)⟩
  · obtain ⟨names, hNames, rfl⟩ := List.mem_map.1 hp
    have hHolds := (mem_sortByNames hProper).1 hNames
    obtain ⟨content, hContent⟩ := hHolds.file
    exact ⟨content, Disk.entry_text_append h hContent (hSearch.isOverlong_eq_false hHolds)⟩

/-- A search that does not fail finds the lock files. -/
theorem finds_of_discover (h : d.entry root.text = .ok (.folder inside))
    (hPaths : discover d root = .ok paths) :
    paths = (sortByNames inside.lockFiles).map root.append ∧ IsSearchable root inside ∧
      Finds d root inside paths := by
  by_cases hSearch : IsSearchable root inside
  · rw [discover_eq_ok h hSearch, Except.ok.injEq] at hPaths
    subst hPaths
    exact ⟨rfl, hSearch, finds_of_isSearchable h hSearch⟩
  · obtain ⟨p, -, -, hError⟩ := discover_eq_error h hSearch
    rw [hError] at hPaths
    simp at hPaths

theorem Finds.nodup (h : Finds d root inside paths) : paths.Nodup := by
  refine h.increasing.imp fun hlt heq => ?_
  rw [heq] at hlt
  exact List.lt_irrefl _ hlt

/-- What is found below the root are the lock files in it. -/
theorem Finds.append_mem_iff {e : Entry} (h : Finds d root inside paths)
    (hProper : inside.isProper = true) (he : inside.at? names = some e) :
    root.append names ∈ paths ↔ inside.HoldsLockFile names := by
  have hParts := root.parts_append_of_at? hProper he
  rw [h.mem_iff, hParts]
  constructor
  · rintro ⟨-, names', heq, hHolds⟩
    rwa [List.append_cancel_left heq]
  · intro hHolds
    exact ⟨rfl, names, rfl, hHolds⟩

/-- The names that lead from the root to each of the files do not depend on the root. -/
theorem map_relativeTo?_of_discover (h : d.entry root.text = .ok (.folder inside))
    (hPaths : discover d root = .ok paths) :
    paths.map (·.relativeTo? root) = (sortByNames inside.lockFiles).map some := by
  rw [(finds_of_discover h hPaths).1, List.map_map]
  refine List.map_congr_left fun names hNames => ?_
  have hProper := Disk.isProper_of_entry_eq_ok h
  obtain ⟨content, hContent⟩ := ((mem_sortByNames hProper).1 hNames).file
  exact Path.relativeTo?_eq_some_iff.2 ⟨rfl, root.parts_append_of_at? hProper hContent⟩

theorem Finds.name_eq {p : Path} (h : Finds d root inside paths) (hp : p ∈ paths) :
    p.name = lockFileName := by
  obtain ⟨-, names, hParts, hHolds⟩ := (h.mem_iff p).1 hp
  rw [Path.name, hParts, List.getLast?_append, hHolds.named]
  rfl

theorem Finds.exists_moduleOf {p : Path} (h : Finds d root inside paths) (hp : p ∈ paths) :
    ∃ m, moduleOf root p = .ok m := by
  obtain ⟨hAnchor, names, hParts, hHolds⟩ := (h.mem_iff p).1 hp
  exact ⟨_, moduleOf_eq hAnchor hHolds.ne_nil hParts⟩

/-- No two lock files that a search finds belong to one module. -/
theorem nodup_moduleOf (h : d.entry root.text = .ok (.folder inside))
    (hPaths : discover d root = .ok paths) : (paths.map (moduleOf root)).Nodup := by
  obtain ⟨-, -, hFinds⟩ := finds_of_discover h hPaths
  refine List.pairwise_map.2 (hFinds.nodup.imp_of_mem fun {p q} hp hq hne heq => hne ?_)
  obtain ⟨m, hm⟩ := hFinds.exists_moduleOf hp
  refine eq_of_moduleOf_eq hm (heq ▸ hm) ?_
  rw [hFinds.name_eq hp, hFinds.name_eq hq]

/--
**A search is exact.** Let a path lead to a directory. Unless at some place below it the path of
a lock file is too long, a search finds exactly the files that are named like lock files, at any
depth, and to which no directory leads that is skipped, in strictly increasing order of the names
that lead to them. A directory is not found, whatever its name, but the lock files in it are. The
names of the root and of what leads to it do not matter: in another place the same directory has
the same files. If a path is too long, the search fails.
-/
theorem discover_exact (h : d.entry root.text = .ok (.folder inside)) :
    (IsSearchable root inside → ∃ paths, discover d root = .ok paths ∧ Finds d root inside paths ∧
      (∀ names below, inside.at? names = some (.folder below) →
        root.append names ∉ paths ∧
        ∀ names', (∀ n ∈ names, n ∉ skippedFolders) → below.HoldsLockFile names' →
          root.append (names ++ names') ∈ paths) ∧
      ∀ d' root' paths', d'.entry root'.text = .ok (.folder inside) →
        discover d' root' = .ok paths' →
        paths'.map (·.relativeTo? root') = paths.map (·.relativeTo? root)) ∧
    (¬ IsSearchable root inside → ∃ e, discover d root = .error e ∧ e.fault = .tooLong) := by
  have hProper := Disk.isProper_of_entry_eq_ok h
  constructor
  · intro hSearch
    have hPaths := discover_eq_ok h hSearch
    obtain ⟨-, -, hFinds⟩ := finds_of_discover h hPaths
    refine ⟨_, hPaths, hFinds, fun names below hBelow => ⟨?_, fun names' hNames hHolds => ?_⟩,
      fun d' root' paths' h' hPaths' => ?_⟩
    · -- a directory stands there, and no file
      rw [hFinds.append_mem_iff hProper hBelow]
      rintro ⟨⟨content, hContent⟩, -, -⟩
      rw [hBelow] at hContent
      simp at hContent
    · -- no directory on the way is skipped, the one that the search came upon included
      have hHolds' := hHolds.append hBelow hNames
      obtain ⟨content, hContent⟩ := hHolds'.file
      exact (hFinds.append_mem_iff hProper hContent).2 hHolds'
    · rw [map_relativeTo?_of_discover h' hPaths', map_relativeTo?_of_discover h hPaths]
  · intro hSearch
    obtain ⟨p, -, -, hError⟩ := discover_eq_error h hSearch
    exact ⟨_, hError, rfl⟩

private def lockFile : Listing → Listing := .file lockFileName []

/-- Lock files in directories that count, one of them named like a lock file, and in
one that does not. -/
private def modules : Listing :=
  lockFile (.folder "a-b".text (lockFile .nil)
    (.folder "a".text (.folder lockFileName (lockFile .nil) .nil)
      (.folder "build".text (lockFile .nil) .nil)))

private def buildDisk : Disk where
  root := .folder "work".text (.folder "build".text modules .nil) .nil
  working := ["work".text]

private def modulesDisk : Disk where
  root := modules

private def buildRoot : Path := Path.ofText "./build/../build".text

private def lockPaths (root : Path) : List Path :=
  [["a".text, lockFileName, lockFileName], ["a-b".text, lockFileName], [lockFileName]].map
    root.append

theorem discover_exact_build :
    buildDisk.entry buildRoot.text = .ok (.folder modules) ∧
    IsSearchable buildRoot modules ∧
    Finds buildDisk buildRoot modules (lockPaths buildRoot) ∧
    (lockPaths Path.root).map (·.relativeTo? Path.root) =
      (lockPaths buildRoot).map (·.relativeTo? buildRoot) :=
  have h : buildDisk.entry buildRoot.text = .ok (.folder modules) := by rfl
  have hSearch : IsSearchable buildRoot modules :=
    (isSearchable_iff (Disk.isProper_of_entry_eq_ok h)).2 (by decide)
  have hPaths : discover buildDisk buildRoot = .ok (lockPaths buildRoot) := by rfl
  have ⟨_, hFound, hFinds, _, hPlaces⟩ := (discover_exact h).1 hSearch
  have heq := Except.ok.inj (hFound.symm.trans hPaths)
  ⟨h, hSearch, heq ▸ hFinds, heq ▸ hPlaces modulesDisk Path.root (lockPaths Path.root) rfl rfl⟩

end Lockstep
