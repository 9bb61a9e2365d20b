import Lockstep.Discovery
import Lockstep.Proofs.Files.Places

/-!
# Lockstep — the lock files of a directory

A listing with one more entry has at its places what the entry has below its name and
what the rest has (`at?_cons_eq_some_iff`). Two lists of names are known from that, by
induction on the listing: those that lead to the directories (`mem_folders_iff`), and
those that lead to the lock files of modules (`mem_lockFiles_iff`), each once
(`nodup_lockFiles`).
-/

namespace Lockstep

namespace Listing

variable {l : Listing} {names : List Text}

@[simp] theorem get?_cons (n : Text) (e : Entry) (rest : Listing) (name : Text) :
    (cons n e rest).get? name = if n = name then some e else rest.get? name := by
  cases e <;> rfl

/-- What is in a proper listing with one more entry is below this entry or in the
rest. Not both: no two entries of a proper listing have one name. -/
theorem at?_cons_eq_some_iff {n : Text} {e x : Entry} {rest : Listing}
    (hProper : (cons n e rest).isProper = true) (hNames : names ≠ []) :
    (cons n e rest).at? names = some x ↔
      (∃ below, names = n :: below ∧ e.at? below = some x) ∨ rest.at? names = some x := by
  obtain ⟨first, below, rfl⟩ := List.exists_cons_of_ne_nil hNames
  rw [at?_cons, get?_cons, at?_cons]
  by_cases hFirst : n = first
  · subst hFirst
    -- no other entry has this name, so that nothing in the rest is below it
    have hNone : rest.get? n = none := by
      rw [isProper_cons] at hProper
      simp only [Bool.and_eq_true, Bool.not_eq_true', List.contains_eq_mem,
        decide_eq_false_iff_not] at hProper
      rw [← Option.not_isSome_iff_eq_none, isSome_get?]
      exact hProper.1.1.2
    simp [hNone]
  · simp [hFirst, Ne.symm hFirst]

theorem ne_nil_of_at?_eq_file {content : List UInt8} (h : l.at? names = some (.file content)) :
    names ≠ [] := by
  rintro rfl
  rw [at?] at h
  simp at h

/-- Below a file there is nothing but the file itself. -/
theorem at?_file_eq_some_iff {n : Text} {content : List UInt8} {x : Entry} {rest : Listing}
    (hProper : (file n content rest).isProper = true) (hNames : names ≠ []) :
    (file n content rest).at? names = some x ↔
      names = [n] ∧ x = .file content ∨ rest.at? names = some x := by
  -- nothing is below a file, so that only its own name leads to it
  have hBelow : ∀ below, (Entry.file content).at? below = some x ↔
      below = [] ∧ x = .file content := by
    intro below
    cases below <;> simp [Entry.at?, eq_comm]
  refine (at?_cons_eq_some_iff (e := .file content) hProper hNames).trans (or_congr_left ?_)
  constructor
  · rintro ⟨below, rfl, h⟩
    obtain ⟨rfl, rfl⟩ := (hBelow below).1 h
    exact ⟨rfl, rfl⟩
  · rintro ⟨rfl, rfl⟩
    exact ⟨[], rfl, (hBelow []).2 ⟨rfl, rfl⟩⟩

/-- Below a directory is what is in it. -/
theorem at?_folder_eq_some_iff {n : Text} {inside rest : Listing} {x : Entry}
    (hProper : (folder n inside rest).isProper = true) (hNames : names ≠ []) :
    (folder n inside rest).at? names = some x ↔
      (∃ below, names = n :: below ∧ inside.at? below = some x) ∨ rest.at? names = some x := by
  refine (at?_cons_eq_some_iff (e := .folder inside) hProper hNames).trans ?_
  simp only [Entry.at?_folder]

theorem isProper_rest_of_file {n : Text} {content : List UInt8} {rest : Listing}
    (h : (file n content rest).isProper = true) : rest.isProper = true := by
  simp only [isProper, Bool.and_eq_true] at h
  exact h.2

theorem isProper_of_folder {n : Text} {inside rest : Listing}
    (h : (folder n inside rest).isProper = true) :
    inside.isProper = true ∧ rest.isProper = true := by
  simp only [isProper, Bool.and_eq_true] at h
  exact ⟨h.1.2, h.2⟩

-- ---------------------------------------------------------------------------
-- Directories
-- ---------------------------------------------------------------------------

theorem mem_folders_file {n : Text} {content : List UInt8} {rest : Listing} :
    names ∈ (file n content rest).folders ↔ names ∈ rest.folders := Iff.rfl

/-- The directories of a listing that begins with one are this one, those in it, and
those of the rest. -/
theorem mem_folders_folder {n : Text} {inside rest : Listing} :
    names ∈ (folder n inside rest).folders ↔
      (∃ below, names = n :: below ∧ below ∈ [] :: inside.folders) ∨ names ∈ rest.folders := by
  simp only [folders, List.cons_append, List.mem_cons, List.mem_append, List.mem_map]
  constructor
  · rintro (rfl | ⟨below, hBelow, rfl⟩ | hRest)
    · exact Or.inl ⟨[], rfl, Or.inl rfl⟩
    · exact Or.inl ⟨below, rfl, Or.inr hBelow⟩
    · exact Or.inr hRest
  · rintro (⟨below, rfl, rfl | hBelow⟩ | hRest)
    · exact Or.inl rfl
    · exact Or.inr (Or.inl ⟨below, hBelow, rfl⟩)
    · exact Or.inr (Or.inr hRest)

/-- The directories of a proper listing, itself among them, are where directories
are. It takes a proper listing, for a name that stands twice would hide the
second entry. -/
theorem mem_folders_iff (hProper : l.isProper = true) :
    names ∈ [] :: l.folders ↔ ∃ below, l.at? names = some (.folder below) := by
  rcases eq_or_ne names [] with rfl | hNames
  · exact iff_of_true List.mem_cons_self ⟨l, at?.eq_1 l⟩
  -- the listing itself has no names, so that the induction is about the directories in it
  induction l generalizing names with
  | nil =>
    obtain ⟨first, rest, rfl⟩ := List.exists_cons_of_ne_nil hNames
    simp [folders, at?_cons, get?]
  | file n content rest ih =>
    have hRest := ih (isProper_rest_of_file hProper) hNames
    rw [List.mem_cons, or_iff_right hNames] at hRest ⊢
    simp [mem_folders_file, hRest, at?_file_eq_some_iff hProper hNames]
  | folder n inside rest ihInside ih =>
    obtain ⟨hInside, hProperRest⟩ := isProper_of_folder hProper
    have hRest := ih hProperRest hNames
    have hBelow : ∀ below, below ∈ [] :: inside.folders ↔
        ∃ found, inside.at? below = some (.folder found) := by
      intro below
      rcases eq_or_ne below [] with rfl | hne
      · exact iff_of_true List.mem_cons_self ⟨inside, at?.eq_1 inside⟩
      · exact ihInside hInside hne
    rw [List.mem_cons, or_iff_right hNames] at hRest ⊢
    simp only [mem_folders_folder, hRest, hBelow, at?_folder_eq_some_iff hProper hNames]
    constructor
    · rintro (⟨below, rfl, found, hFound⟩ | ⟨found, hFound⟩)
      · exact ⟨found, Or.inl ⟨below, rfl, hFound⟩⟩
      · exact ⟨found, Or.inr hFound⟩
    · rintro ⟨found, ⟨below, rfl, hFound⟩ | hFound⟩
      · exact Or.inl ⟨below, rfl, found, hFound⟩
      · exact Or.inr ⟨found, hFound⟩

-- ---------------------------------------------------------------------------
-- Lock files
-- ---------------------------------------------------------------------------

/-- Names that lead to a file that is named like a lock file, through directories
that may hold modules. -/
structure HoldsLockFile (l : Listing) (names : List Text) : Prop where
  file : ∃ content, l.at? names = some (.file content)
  named : names.getLast? = some lockFileName
  counts : ∀ n ∈ names.dropLast, n ∉ skippedFolders

theorem lockFiles_file (n : Text) (content : List UInt8) (rest : Listing) :
    (file n content rest).lockFiles =
      if n = lockFileName then [n] :: rest.lockFiles else rest.lockFiles := rfl

theorem lockFiles_folder (n : Text) (inside rest : Listing) :
    (folder n inside rest).lockFiles =
      if n ∈ skippedFolders then rest.lockFiles
      else inside.lockFiles.map (n :: ·) ++ rest.lockFiles := rfl

/-- A file is a lock file if it has the name of one. -/
theorem mem_lockFiles_file {n : Text} {content : List UInt8} {rest : Listing} :
    names ∈ (file n content rest).lockFiles ↔
      n = lockFileName ∧ names = [n] ∨ names ∈ rest.lockFiles := by
  rw [lockFiles_file]
  by_cases h : n = lockFileName
  · simp [h]
  · simp [h]

/-- The lock files in a directory count unless it is one that is skipped. -/
theorem mem_lockFiles_folder {n : Text} {inside rest : Listing} :
    names ∈ (folder n inside rest).lockFiles ↔
      (n ∉ skippedFolders ∧ ∃ below ∈ inside.lockFiles, names = n :: below) ∨
        names ∈ rest.lockFiles := by
  rw [lockFiles_folder]
  by_cases h : n ∈ skippedFolders
  · simp [h]
  · simp [h, eq_comm]

theorem HoldsLockFile.ne_nil (h : l.HoldsLockFile names) : names ≠ [] := by
  rintro rfl
  exact absurd h.named (by simp)

/-- A listing that begins with a file holds the lock files of the rest, and the file
if it is named so. With the next lemma this is the recursion of the search, said of
the files themselves. -/
theorem holdsLockFile_file_iff {n : Text} {content : List UInt8} {rest : Listing}
    (hProper : (file n content rest).isProper = true) :
    (file n content rest).HoldsLockFile names ↔
      n = lockFileName ∧ names = [n] ∨ rest.HoldsLockFile names := by
  constructor
  · intro h
    obtain ⟨found, hFound⟩ := h.file
    rcases (at?_file_eq_some_iff hProper h.ne_nil).1 hFound with ⟨rfl, -⟩ | hRest
    · exact Or.inl ⟨Option.some.inj h.named, rfl⟩
    · exact Or.inr ⟨⟨found, hRest⟩, h.named, h.counts⟩
  · rintro (⟨rfl, rfl⟩ | h)
    · refine ⟨⟨content, ?_⟩, rfl, by simp⟩
      exact (at?_file_eq_some_iff hProper (by simp)).2 (Or.inl ⟨rfl, rfl⟩)
    · obtain ⟨found, hFound⟩ := h.file
      exact ⟨⟨found, (at?_file_eq_some_iff hProper h.ne_nil).2 (Or.inr hFound)⟩, h.named, h.counts⟩

/-- A listing that begins with a directory holds the lock files of the rest, and
those in the directory if it counts. -/
theorem holdsLockFile_folder_iff {n : Text} {inside rest : Listing}
    (hProper : (folder n inside rest).isProper = true) :
    (folder n inside rest).HoldsLockFile names ↔
      (n ∉ skippedFolders ∧ ∃ below, inside.HoldsLockFile below ∧ names = n :: below) ∨
        rest.HoldsLockFile names := by
  constructor
  · intro h
    obtain ⟨found, hFound⟩ := h.file
    rcases (at?_folder_eq_some_iff hProper h.ne_nil).1 hFound with ⟨below, rfl, hBelow⟩ | hRest
    · -- something is below the directory, so that the last name is not its own
      have hne := ne_nil_of_at?_eq_file hBelow
      have hNamed := h.named
      have hCounts := h.counts
      rw [List.getLast?_cons_of_ne_nil hne] at hNamed
      rw [List.dropLast_cons_of_ne_nil hne] at hCounts
      obtain ⟨hn, hCounts⟩ := List.forall_mem_cons.1 hCounts
      exact Or.inl ⟨hn, below, ⟨⟨found, hBelow⟩, hNamed, hCounts⟩, rfl⟩
    · exact Or.inr ⟨⟨found, hRest⟩, h.named, h.counts⟩
  · rintro (⟨hn, below, h, rfl⟩ | h)
    · obtain ⟨found, hFound⟩ := h.file
      refine ⟨⟨found, ?_⟩, ?_, ?_⟩
      · exact (at?_folder_eq_some_iff hProper (by simp)).2 (Or.inl ⟨below, rfl, hFound⟩)
      · rw [List.getLast?_cons_of_ne_nil h.ne_nil, h.named]
      · rw [List.dropLast_cons_of_ne_nil h.ne_nil]
        exact List.forall_mem_cons.2 ⟨hn, h.counts⟩
    · obtain ⟨found, hFound⟩ := h.file
      exact ⟨⟨found, (at?_folder_eq_some_iff hProper h.ne_nil).2 (Or.inr hFound)⟩, h.named, h.counts⟩

/-- The names that a search of a directory gives are those of its lock files. The
search is a recursion on the listing, and each step of it is one of the two lemmas
about the first entry. -/
theorem mem_lockFiles_iff (hProper : l.isProper = true) :
    names ∈ l.lockFiles ↔ l.HoldsLockFile names := by
  induction l generalizing names with
  | nil =>
    refine iff_of_false List.not_mem_nil fun h => ?_
    obtain ⟨first, rest, rfl⟩ := List.exists_cons_of_ne_nil h.ne_nil
    obtain ⟨found, hFound⟩ := h.file
    simp [at?_cons, get?] at hFound
  | file n content rest ih =>
    rw [mem_lockFiles_file, holdsLockFile_file_iff hProper, ih (isProper_rest_of_file hProper)]
  | folder n inside rest ihInside ih =>
    obtain ⟨hInside, hRest⟩ := isProper_of_folder hProper
    rw [mem_lockFiles_folder, holdsLockFile_folder_iff hProper, ih hRest]
    simp only [ihInside hInside]

/-- A lock file of a directory below is one of the directory above, if all
directories on the way count. -/
theorem HoldsLockFile.append {above : List Text} {below : Listing}
    (hBelow : l.at? above = some (.folder below)) (hAbove : ∀ n ∈ above, n ∉ skippedFolders)
    (h : below.HoldsLockFile names) : l.HoldsLockFile (above ++ names) := by
  obtain ⟨content, hContent⟩ := h.file
  refine ⟨⟨content, ?_⟩, ?_, ?_⟩
  · rw [at?_append, hBelow, Option.bind_some, Entry.at?_folder, hContent]
  · rw [List.getLast?_append, h.named]
    rfl
  · rw [List.dropLast_append_of_ne_nil h.ne_nil]
    exact List.forall_mem_append.2 ⟨hAbove, h.counts⟩

/-- A lock file is in a directory. -/
theorem HoldsLockFile.exists_folder (h : l.HoldsLockFile names) :
    ∃ below, l.at? names.dropLast = some (.folder below) := by
  obtain ⟨content, hContent⟩ := h.file
  obtain ⟨above, rfl⟩ := List.getLast?_eq_some_iff.1 h.named
  rw [at?_append, Option.bind_eq_some_iff] at hContent
  obtain ⟨found, hFound, hFile⟩ := hContent
  rw [List.dropLast_concat, hFound]
  cases found with
  | file other => exact absurd hFile (by simp [Entry.at?])
  | folder below => exact ⟨below, rfl⟩

/-- The first name that leads to a lock file is one of the listing. -/
theorem head_mem_names_of_mem_lockFiles {first : Text} {below : List Text}
    (h : first :: below ∈ l.lockFiles) : first ∈ l.names := by
  induction l with
  | nil => exact absurd h List.not_mem_nil
  | file n content rest ih =>
    rcases mem_lockFiles_file.1 h with ⟨-, heq⟩ | hRest
    · simp [names, (List.cons.inj heq).1]
    · exact List.mem_cons_of_mem n (ih hRest)
  | folder n inside rest _ ih =>
    rcases mem_lockFiles_folder.1 h with ⟨-, _, _, heq⟩ | hRest
    · simp [names, (List.cons.inj heq).1]
    · exact List.mem_cons_of_mem n (ih hRest)

/-- No lock file is given twice. Lists of names that begin with different names are
different, and no two entries of a proper listing share a name. -/
theorem nodup_lockFiles (hProper : l.isProper = true) : l.lockFiles.Nodup := by
  induction l with
  | nil => exact List.nodup_nil
  | file n content rest ih =>
    simp only [isProper, Bool.and_eq_true, Bool.not_eq_true', List.contains_eq_mem,
      decide_eq_false_iff_not] at hProper
    rw [lockFiles_file]
    split
    · refine List.nodup_cons.2 ⟨fun hMem => ?_, ih hProper.2⟩
      exact hProper.1.2 (head_mem_names_of_mem_lockFiles hMem)
    · exact ih hProper.2
  | folder n inside rest ihInside ih =>
    simp only [isProper, Bool.and_eq_true, Bool.not_eq_true', List.contains_eq_mem,
      decide_eq_false_iff_not] at hProper
    rw [lockFiles_folder]
    split
    · exact ih hProper.2
    · -- names that begin with the directory are different from those that begin in the rest
      refine List.nodup_append.2 ⟨?_, ih hProper.2, fun xs hxs ys hys => ?_⟩
      · have hInside := ihInside hProper.1.2
        exact List.pairwise_map.2 (hInside.imp fun hne heq => hne (List.cons.inj heq).2)
      · obtain ⟨below, -, rfl⟩ := List.mem_map.1 hxs
        rintro rfl
        exact hProper.1.1.2 (head_mem_names_of_mem_lockFiles hys)

end Listing

end Lockstep
