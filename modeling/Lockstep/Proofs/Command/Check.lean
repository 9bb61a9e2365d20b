import Lockstep.Proofs.Command.Jobs
import Lockstep.Proofs.LockFile.SecondRun

/-!
# Lockstep — what a check predicts

An update that only checks tells which lock files the update would write. Both go
through the same jobs and have the same results, and a result says that the text is
another one iff the bytes of the file are: the new text has no carriage returns, so
that a file which holds its bytes is read as that text, and is in step
(`read_ne_of_needsUpdate`).

This is so as long as everything can be encoded. A check does not encode the new texts,
so that it announces also those that the update fails to write
(`update_check_predicts_iff`).
-/

namespace Lockstep

-- ---------------------------------------------------------------------------
-- Results of a job
-- ---------------------------------------------------------------------------

namespace LockFile

/-- An update reports a new text only if it differs from the old one. -/
theorem ne_of_update_eq_some {text new : Text} {p : Project} {siblings : List Sibling}
    (h : update text p siblings = .ok (some new)) : new ≠ text := by
  unfold update at h
  split at h
  · simp at h
  · split at h
    · simp at h
    · next rendered hRendered =>
      split at h
      · simp at h
      · next hne =>
        obtain rfl : rendered = new := by simpa using h
        exact hne

end LockFile

namespace Job

variable {j : Job} {siblings : List Sibling} {write : Bool} {d : Disk}

/-- The result of a job that does not write tells of a change iff the text is not in
step. This is what a check announces; whether the new text could be written is not
asked here. -/
theorem exists_changed_iff (hName : isLockFile j.path = true) (hText : IsPathText j.path.text) :
    (∃ r, (j.run siblings false d).1 = .ok r ∧ r.changed = true) ↔
      ∃ text new, LockFile.load d j.path = .ok text ∧
        LockFile.update text j.project siblings = .ok (some new) := by
  rcases plan_cases siblings d hName hText with ⟨why, hLoad, hPlan⟩ | ⟨text, hLoad, hUpdate, hPlan⟩ |
    ⟨text, new, hLoad, hUpdate, hPlan⟩
  · rw [run, hPlan, hLoad]
    simp [result]
  · rw [run, hPlan, hLoad]
    simp [result, hUpdate]
  · exact iff_of_true ⟨_, by rw [run, hPlan]; rfl, rfl⟩ ⟨text, new, hLoad, hUpdate⟩

/-- A job whose text is in step, or is not read, leaves the disk as it is. -/
theorem run_snd_of_not_changed (hName : isLockFile j.path = true) (hText : IsPathText j.path.text)
    (h : ¬ ∃ text new, LockFile.load d j.path = .ok text ∧
      LockFile.update text j.project siblings = .ok (some new)) :
    (j.run siblings write d).2 = d := by
  rcases plan_cases siblings d hName hText with ⟨why, -, hPlan⟩ | ⟨text, -, -, hPlan⟩ |
    ⟨text, new, hLoad, hUpdate, -⟩
  · rw [run, hPlan]
    rfl
  · rw [run, hPlan]
    rfl
  · exact absurd ⟨text, new, hLoad, hUpdate⟩ h

/-- The result of a job names the path of the job. -/
theorem path_of_run_eq_ok {r : FileResult} (h : (j.run siblings false d).1 = .ok r) :
    r.path = j.path := by
  rw [run] at h
  cases hPlan : j.plan siblings d with
  | refuse | abort why | fail old why => simp [hPlan, result] at h
  | skip why | keep text | replace old new =>
    rw [hPlan] at h
    rw [← Except.ok.inj h]

end Job

namespace Build

/-- A build that was loaded is the build of some document. What is known of accepted
documents thus holds of it, however the file was written. -/
theorem exists_document_of_load {depth : Nat} {d : Disk} {path : Path} {b : Build}
    (h : load depth d path = .ok b) :
    ∃ v, ofDocument v = .ok b := by
  unfold load at h
  split at h
  · simp at h
  · unfold ofBytes at h
    split at h
    · simp at h
    · dsimp only at h
      split at h
      · simp at h
      · next v _ =>
        split at h
        · simp at h
        · next b' hv => exact ⟨v, by rw [hv, Except.ok.inj h]⟩

end Build

namespace Command

variable {d : Disk} {b : Build} {root p : Path} {new : Text}

-- ---------------------------------------------------------------------------
-- Lock files that are not in step
-- ---------------------------------------------------------------------------

/-- A lock file that a search finds, of a module of the build, with a text that is
not in step; the text that it is to have. -/
def NeedsUpdate (d : Disk) (b : Build) (root p : Path) (new : Text) : Prop :=
  ∃ paths key project bytes text, discover d root = .ok paths ∧ p ∈ paths ∧
    moduleOf root p = .ok key ∧ b.project? key = .ok project ∧
    d.read p = .ok bytes ∧ Utf8.decode bytes = .ok text ∧
    LockFile.update text.unifyLineEnds project b.siblings = .ok (some new)

/-- After a search, what needs an update is told by the jobs: it is the file of a
job that would replace its text. -/
theorem needsUpdate_iff {paths : List Path} (hPaths : discover d root = .ok paths) :
    NeedsUpdate d b root p new ↔
      ∃ j ∈ jobsFound b root paths, j.path = p ∧ ∃ text, LockFile.load d p = .ok text ∧
        LockFile.update text j.project b.siblings = .ok (some new) := by
  constructor
  · rintro ⟨paths', key, project, bytes, text, hPaths', hp, hKey, hProject, hRead, hDecode, hUpdate⟩
    rw [hPaths, Except.ok.injEq] at hPaths'
    subst hPaths'
    exact ⟨⟨p, project⟩, mem_jobsFound.2 ⟨hp, key, hKey, hProject⟩, rfl, _,
      LockFile.load_eq_ok_iff.2 ⟨bytes, text, hRead, hDecode, rfl⟩, hUpdate⟩
  · rintro ⟨j, hj, rfl, text, hLoad, hUpdate⟩
    obtain ⟨hp, key, hKey, hProject⟩ := mem_jobsFound.1 hj
    obtain ⟨bytes, raw, hRead, hDecode, rfl⟩ := LockFile.load_eq_ok_iff.1 hLoad
    exact ⟨paths, key, j.project, bytes, raw, hPaths, hp, hKey, hProject, hRead, hDecode, hUpdate⟩

theorem NeedsUpdate.isFound {paths : List Path} (h : NeedsUpdate d b root p new)
    (hPaths : discover d root = .ok paths) (hFound : ∀ p ∈ paths, IsFound d root p) :
    IsFound d root p := by
  obtain ⟨j, hj, rfl, -⟩ := (needsUpdate_iff hPaths).1 h
  exact hFound j.path (mem_jobsFound.1 hj).1

/-- The file does not hold the new text already, nor is it empty. With the bytes of
the new text it would be read as this text, which is in step. -/
theorem read_ne_of_needsUpdate {v : Json.Value} (hBuild : Build.ofDocument v = .ok b)
    (h : NeedsUpdate d b root p new) : d.read p ≠ .ok (Utf8.bytesOf new) := by
  obtain ⟨paths, key, project, bytes, text, -, -, -, hProject, hRead, hDecode, hUpdate⟩ := h
  have hAccepted := Build.isAccepted_of_ofDocument hBuild _ (Build.project?_eq_ok_iff.1 hProject)
  have hReturn : char '\r' ∉ new := by
    rw [LockFile.eq_written_of_update_eq_some hUpdate]
    exact LockFile.not_mem_written_reconcile (by decide) (by decide)
      (Text.return_not_mem_unifyLineEnds text) hAccepted.return_not_mem
  intro hSame
  rw [hRead, Except.ok.injEq] at hSame
  by_cases hNew : Utf8.IsEncodable new
  · rw [hSame, Utf8.decode_bytesOf hNew, Except.ok.injEq] at hDecode
    rw [← hDecode, Text.unifyLineEnds_eq_self hReturn] at hUpdate
    exact LockFile.ne_of_update_eq_some hUpdate rfl
  · -- an empty file is blank, and left alone
    rw [hSame, Utf8.bytesOf_of_not_isEncodable hNew] at hDecode
    obtain rfl := Except.ok.inj hDecode
    exact absurd hUpdate (by simp [LockFile.update, Text.unifyLineEnds, Text.isAllBlank])

/-- The jobs whose results tell of a change are those of the lock files that are not
in step. The first is what a check goes by, the second is said without jobs. -/
theorem exists_needsUpdate_iff {paths : List Path} (hPaths : discover d root = .ok paths)
    (hFound : ∀ p ∈ paths, IsFound d root p) :
    (∃ new, NeedsUpdate d b root p new) ↔
      ∃ j ∈ jobsFound b root paths, j.path = p ∧
        ∃ r, (j.run b.siblings false d).1 = .ok r ∧ r.changed = true := by
  simp only [needsUpdate_iff hPaths]
  constructor
  · rintro ⟨new, j, hj, rfl, hChanged⟩
    have hp := hFound j.path (mem_jobsFound.1 hj).1
    obtain ⟨text, hLoad, hUpdate⟩ := hChanged
    exact ⟨j, hj, rfl,
      (Job.exists_changed_iff hp.named hp.isPathText).2 ⟨text, new, hLoad, hUpdate⟩⟩
  · rintro ⟨j, hj, rfl, hChanged⟩
    have hp := hFound j.path (mem_jobsFound.1 hj).1
    obtain ⟨text, new, hLoad, hUpdate⟩ :=
      (Job.exists_changed_iff hp.named hp.isPathText).1 hChanged
    exact ⟨new, j, hj, rfl, text, hLoad, hUpdate⟩

/-- The new texts of all jobs can be encoded iff those of the lock files that are
not in step can. -/
theorem forall_isWritable_iff {paths : List Path} (hPaths : discover d root = .ok paths) :
    (∀ j ∈ jobsFound b root paths, j.IsWritable b.siblings d) ↔
      ∀ p new, NeedsUpdate d b root p new → Utf8.IsEncodable new := by
  constructor
  · intro h p new hNeeds
    obtain ⟨j, hj, rfl, text, hLoad, hUpdate⟩ := (needsUpdate_iff hPaths).1 hNeeds
    exact h j hj text new hLoad hUpdate
  · intro h j hj text new hLoad hUpdate
    exact h j.path new ((needsUpdate_iff hPaths).2 ⟨j, hj, rfl, text, hLoad, hUpdate⟩)

/-- A build without halves of surrogate pairs has no new text that cannot be encoded. -/
theorem isEncodable_of_needsUpdate (hProjects : ∀ e ∈ b.projects, e.2.IsEncodable)
    (h : NeedsUpdate d b root p new) : Utf8.IsEncodable new := by
  obtain ⟨paths, key, project, bytes, text, -, -, -, hProject, hRead, hDecode, hUpdate⟩ := h
  rw [LockFile.eq_written_of_update_eq_some hUpdate]
  refine LockFile.isEncodable_written_reconcile ?_ (hProjects _ (Build.project?_eq_ok_iff.1 hProject))
  exact LockFile.isEncodable_of_load (LockFile.load_eq_ok_iff.2 ⟨bytes, text, hRead, hDecode, rfl⟩)

/-- Each lock file that is not in step is written once, with its new text. If this
cannot be encoded, the file is left without any bytes. -/
theorem read_foldl_of_needsUpdate {paths : List Path} (hPaths : discover d root = .ok paths)
    (hNodup : paths.Nodup) (hFound : ∀ p ∈ paths, IsFound d root p)
    (h : NeedsUpdate d b root p new) :
    ((jobsFound b root paths).foldl (Batch.settle b.siblings true d) d).read p =
      .ok (Utf8.bytesOf new) := by
  obtain ⟨j, hj, rfl, text, hLoad, hUpdate⟩ := (needsUpdate_iff hPaths).1 h
  have hp := hFound j.path (mem_jobsFound.1 hj).1
  obtain ⟨bytes, hRead⟩ := hp.exists_read_eq_ok
  have hRun := Job.run_eq_replace true hp.named hLoad hUpdate
  have hSettle : Batch.settle b.siblings true d d j = d.write j.path (Utf8.bytesOf new) :=
    congrArg Prod.snd hRun
  -- the other jobs are about other files
  have hEnd := Batch.read_foldl_settle_of_mem b.siblings true hj (apart_jobsFound hNodup hFound)
  rw [hSettle, Disk.read_write hRead] at hEnd
  exact hEnd

/-- The other files are as they were. A place may be the file of a job whose text is
in step, or of no job at all. -/
theorem contents?_foldl_of_not_needsUpdate {paths : List Path} {place : List Text}
    (hPaths : discover d root = .ok paths) (hNodup : paths.Nodup)
    (hFound : ∀ p ∈ paths, IsFound d root p)
    (h : ∀ p new, NeedsUpdate d b root p new → p.parts ≠ place) :
    ((jobsFound b root paths).foldl (Batch.settle b.siblings true d) d).contents? place =
      d.contents? place := by
  by_cases hPlace : ∃ j ∈ jobsFound b root paths, d.resolve j.path.text = .ok place
  · obtain ⟨j, hj, hLeads⟩ := hPlace
    have hp := hFound j.path (mem_jobsFound.1 hj).1
    have hParts : j.path.parts = place := by
      rw [hp.leads, Except.ok.injEq] at hLeads
      exact hLeads
    have hKept : ¬ ∃ text new, LockFile.load d j.path = .ok text ∧
        LockFile.update text j.project b.siblings = .ok (some new) := by
      rintro ⟨text, new, hLoad, hUpdate⟩
      exact h j.path new ((needsUpdate_iff hPaths).2 ⟨j, hj, rfl, text, hLoad, hUpdate⟩) hParts
    -- the file is in step or is not read, so that its own job does not write it, and no other job
    -- is about it
    have hSettle : Batch.settle b.siblings true d d j = d :=
      Job.run_snd_of_not_changed hp.named hp.isPathText hKept
    have hEnd := Batch.read_foldl_settle_of_mem b.siblings true hj
      (apart_jobsFound hNodup hFound)
    obtain ⟨bytes, hRead⟩ := hp.exists_read_eq_ok
    have hLeads' := Batch.LeadsAlike.foldl_settle b.siblings true (jobsFound b root paths)
      (fun t => rfl : Batch.LeadsAlike d d) j.path.text
    rw [hSettle, hRead, Disk.read_eq_ok_iff_contents? (hLeads'.trans hLeads)] at hEnd
    rw [hEnd, (Disk.read_eq_ok_iff_contents? hLeads).1 hRead]
  · exact Batch.contents?_foldl_settle (fun t => rfl) fun j hj hLeads => hPlace ⟨j, hj, hLeads⟩

/-- The files that are not in step are the ones with other bytes in the end. One
direction is that no other file is touched, the other that writing a new text never
leaves the old bytes. -/
theorem contents?_foldl_ne_iff {v : Json.Value} {paths : List Path} {place : List Text}
    (hBuild : Build.ofDocument v = .ok b) (hPaths : discover d root = .ok paths)
    (hNodup : paths.Nodup) (hFound : ∀ p ∈ paths, IsFound d root p) :
    ((jobsFound b root paths).foldl (Batch.settle b.siblings true d) d).contents? place ≠
        d.contents? place ↔
      ∃ p new, NeedsUpdate d b root p new ∧ p.parts = place := by
  constructor
  · intro hDiffer
    by_contra hNone
    refine hDiffer (contents?_foldl_of_not_needsUpdate hPaths hNodup hFound ?_)
    exact fun p new hNeeds hParts => hNone ⟨p, new, hNeeds, hParts⟩
  · rintro ⟨p, new, hNeeds, rfl⟩ hSame
    refine read_ne_of_needsUpdate hBuild hNeeds ?_
    have hLeads := (hNeeds.isFound hPaths hFound).leads
    -- if the bytes at the place were the same, the file would hold the new text already
    have hLeads' := Batch.LeadsAlike.foldl_settle b.siblings true (jobsFound b root paths)
      (fun t => rfl : Batch.LeadsAlike d d) p.text
    have hNew := read_foldl_of_needsUpdate hPaths hNodup hFound hNeeds
    rw [Disk.read_eq_ok_iff_contents? (hLeads'.trans hLeads), hSame] at hNew
    exact (Disk.read_eq_ok_iff_contents? hLeads).2 hNew

/-- The paths of the results that tell of a change are those of the lock files
that are not in step. This turns the list that is announced into a statement
about the disk. -/
theorem mem_changed_iff {paths : List Path} {results : List FileResult}
    (hPaths : discover d root = .ok paths) (hFound : ∀ p ∈ paths, IsFound d root p)
    (hResults : results.map Except.ok =
      (jobsFound b root paths).map fun j => (j.run b.siblings false d).1) :
    p ∈ (results.filter (·.changed)).map (·.path) ↔ ∃ new, NeedsUpdate d b root p new := by
  -- the results are those of the jobs, one by one
  have hMem (r : FileResult) :
      r ∈ results ↔ ∃ j ∈ jobsFound b root paths, (j.run b.siblings false d).1 = .ok r := by
    have hMap : (Except.ok r : Except UpdateError FileResult) ∈ results.map Except.ok ↔ r ∈ results := by
      simp
    rw [← hMap, hResults, List.mem_map]
  rw [exists_needsUpdate_iff hPaths hFound]
  simp only [List.mem_map, List.mem_filter, hMem]
  constructor
  · rintro ⟨r, ⟨⟨j, hj, hRun⟩, hr⟩, rfl⟩
    exact ⟨j, hj, (Job.path_of_run_eq_ok hRun).symm, r, hRun, hr⟩
  · rintro ⟨j, hj, rfl, r, hRun, hr⟩
    exact ⟨r, ⟨⟨j, hj, hRun⟩, hr⟩, Job.path_of_run_eq_ok hRun⟩

-- ---------------------------------------------------------------------------
-- Two runs
-- ---------------------------------------------------------------------------

/-- The run ends by itself, with an exit code. -/
def Outcome.Exits (o : Outcome) (code : Nat) : Prop := o.escaped = none ∧ o.code = code

/-- A check tells what an update of the same disk does. -/
structure Predicts (d : Disk) (b : Build) (root : Path) (check plain : Outcome)
    (changed : List Path) : Prop where
  /-- The check leaves all files as they are. -/
  disk : check.disk = d
  /-- Both announce the same lock files, in the same order. -/
  outdated : check.announced "outdated" = changed.map (shownBelow root)
  updated : plain.announced "updated" = changed.map (shownBelow root)
  /-- The check exits with one iff it announces any. -/
  exits : check.Exits 1 ↔ changed ≠ []
  /-- Both end by an error that is not reported, and do nothing, only if the search fails. -/
  escaped : check.escaped = plain.escaped ∧
    (check.escaped = none ↔ ∃ paths, discover d root = .ok paths)
  /-- These are the files with other bytes after the update. -/
  differ : ∀ place, plain.disk.contents? place ≠ d.contents? place ↔ ∃ p ∈ changed, p.parts = place
  /-- They are lock files that a search finds, of modules of the build, with texts not in step. -/
  changed : ∀ p, p ∈ changed ↔ ∃ new, NeedsUpdate d b root p new
  /-- The update leaves the bytes of the new text. -/
  written : ∀ p new, NeedsUpdate d b root p new →
    ∃ bytes, Utf8.encode new = .ok bytes ∧ plain.disk.read p = .ok bytes

/-- What a check and an update of the same disk leave there, whatever they tell. -/
structure Leaves (d : Disk) (b : Build) (root : Path) (check plain : Outcome) : Prop where
  /-- The check leaves all files as they are. -/
  disk : check.disk = d
  /-- The update gives other bytes to the lock files that are not in step, and to no other file. -/
  differ : ∀ place, plain.disk.contents? place ≠ d.contents? place ↔
    ∃ p new, NeedsUpdate d b root p new ∧ p.parts = place
  /-- It leaves the bytes of the new text, or none if there are no such bytes. -/
  written : ∀ p new, NeedsUpdate d b root p new → plain.disk.read p = .ok (Utf8.bytesOf new)

section Failed

variable {e : FileError}

theorem not_needsUpdate_of_discover_eq_error (h : discover d root = .error e) :
    ¬ NeedsUpdate d b root p new := by
  rintro ⟨paths, -, -, -, -, hPaths, -⟩
  exact absurd hPaths (by simp [h])

/-- A check and an update of which the search fails leave the disk as it is. -/
theorem leaves_of_discover_eq_error (h : discover d root = .error e) :
    Leaves d b root (Outcome.escape d (.path e)) (Outcome.escape d (.path e)) where
  disk := rfl
  differ place := by simp [Outcome.escape, not_needsUpdate_of_discover_eq_error h]
  written p new hNeeds := absurd hNeeds (not_needsUpdate_of_discover_eq_error h)

/-- A check of which the search fails predicts an update of which it fails. -/
theorem predicts_of_discover_eq_error (h : discover d root = .error e) :
    Predicts d b root (Outcome.escape d (.path e)) (Outcome.escape d (.path e)) [] where
  disk := rfl
  outdated := rfl
  updated := rfl
  exits := by simp [Outcome.Exits, Outcome.escape]
  escaped := by simp [Outcome.escape, h]
  differ place := by simp [Outcome.escape]
  changed p := by simp [not_needsUpdate_of_discover_eq_error h]
  written p new hNeeds := absurd hNeeds (not_needsUpdate_of_discover_eq_error h)

end Failed

section Searched

variable {v : Json.Value} {paths : List Path}

/-- What both leave on the disk is what their jobs leave there, whether they have
results or not. -/
theorem leaves_updateFound (env : Environment) (call : UpdateCall) (hBuild : Build.ofDocument v = .ok b)
    (hPaths : discover d root = .ok paths) (hNodup : paths.Nodup)
    (hFound : ∀ p ∈ paths, IsFound d root p) :
    Leaves d b root (updateFound env d { call with check := true } b root paths)
      (updateFound env d { call with check := false } b root paths) := by
  have hApart := apart_jobsFound (b := b) hNodup hFound
  refine ⟨?_, fun place => ?_, fun p new hNeeds => ?_⟩
  · rw [disk_updateFound env _ hApart]
    exact Batch.foldl_settle_false _
  · rw [disk_updateFound env _ hApart]
    exact contents?_foldl_ne_iff hBuild hPaths hNodup hFound
  · rw [disk_updateFound env _ hApart]
    exact read_foldl_of_needsUpdate hPaths hNodup hFound hNeeds

/-- If all that is to be written and told can be encoded, the two runs have the same
results: of each job, whether it writes or not (`Job.run_fst_of_isWritable`). What
they announce and how they end is computed from these. -/
theorem predicts_updateFound (env : Environment) (call : UpdateCall)
    (hBuild : Build.ofDocument v = .ok b) (hPaths : discover d root = .ok paths)
    (hNodup : paths.Nodup) (hFound : ∀ p ∈ paths, IsFound d root p)
    (hEncodable : ∀ p new, NeedsUpdate d b root p new →
      Utf8.IsEncodable new ∧ Utf8.IsEncodable (shownBelow root p)) :
    ∃ changed, Predicts d b root (updateFound env d { call with check := true } b root paths)
      (updateFound env d { call with check := false } b root paths) changed := by
  have hApart := apart_jobsFound (b := b) hNodup hFound
  have hLeaves := leaves_updateFound env call hBuild hPaths hNodup hFound
  have hWritable : ∀ j ∈ jobsFound b root paths, j.IsWritable b.siblings d :=
    (forall_isWritable_iff hPaths).2 fun p new hNeeds => (hEncodable p new hNeeds).1
  obtain ⟨results, hCollect, hResults⟩ :=
    exists_collect_jobsFound (b := b) false hFound fun h => absurd h (by decide)
  have hCollect' : Batch.collect ((jobsFound b root paths).map fun j =>
      (j.run b.siblings true d).1) = .ok results := by
    rw [← hCollect]
    refine congrArg Batch.collect (List.map_congr_left fun j hj => ?_)
    have hp := hFound j.path (mem_jobsFound.1 hj).1
    exact Job.run_fst_of_isWritable true hp.named hp.isPathText (hWritable j hj)
  have hChanged (p : Path) := mem_changed_iff (p := p) hPaths hFound hResults
  -- only paths of lock files that are not in step are announced, and these can be encoded
  have hShown : ∀ r ∈ results, r.changed = true → Utf8.IsEncodable (shownBelow root r.path) := by
    intro r hr hRchanged
    obtain ⟨new, hNeeds⟩ := (hChanged r.path).1
      (List.mem_map_of_mem (List.mem_filter.2 ⟨hr, hRchanged⟩))
    exact (hEncodable r.path new hNeeds).2
  obtain ⟨hEscaped, hCode, hAnnounced⟩ :=
    updateFound_of_collect env { call with check := true } hApart hCollect hShown
  obtain ⟨hEscaped', -, hAnnounced'⟩ :=
    updateFound_of_collect env { call with check := false } hApart hCollect' hShown
  -- what is predicted is read off the results, which the two runs share
  refine ⟨(results.filter (·.changed)).map (·.path), hLeaves.disk, ?_, ?_, ?_, ?_, ?_, hChanged, ?_⟩
  · rw [List.map_map]
    exact hAnnounced
  · rw [List.map_map]
    exact hAnnounced'
  · rw [Outcome.Exits, hCode, Bool.true_and, ne_eq, List.map_eq_nil_iff, List.filter_eq_nil_iff]
    cases hAny : results.any (·.changed) with
    | true =>
      obtain ⟨r, hr, hRchanged⟩ := List.any_eq_true.1 hAny
      exact iff_of_true ⟨hEscaped, rfl⟩ fun hNone => hNone r hr hRchanged
    | false =>
      have hNone := List.any_eq_false.1 hAny
      exact iff_of_false (fun h => absurd h.2 (by decide)) fun h => h hNone
  · exact ⟨hEscaped.trans hEscaped'.symm, by simp [hEscaped, hPaths]⟩
  · intro place
    rw [hLeaves.differ]
    simp only [hChanged, exists_and_right]
  · intro p new hNeeds
    exact ⟨_, Utf8.encode_eq_bytesOf (hEncodable p new hNeeds).1, hLeaves.written p new hNeeds⟩

/-- What an update is predicted to write and to tell can be encoded: it is written
on the disk, and announced by the check. -/
theorem isEncodable_of_predicts (env : Environment) (call : UpdateCall) {plain : Outcome}
    {changed : List Path} (hNodup : paths.Nodup) (hFound : ∀ p ∈ paths, IsFound d root p)
    (h : Predicts d b root (updateFound env d { call with check := true } b root paths) plain changed)
    (hNeeds : NeedsUpdate d b root p new) :
    Utf8.IsEncodable new ∧ Utf8.IsEncodable (shownBelow root p) := by
  obtain ⟨bytes, hBytes, -⟩ := h.written p new hNeeds
  refine ⟨⟨bytes, hBytes⟩, ?_⟩
  have hShown : shownBelow root p ∈
      (updateFound env d { call with check := true } b root paths).announced "outdated" := by
    rw [h.outdated]
    exact List.mem_map_of_mem ((h.changed p).2 ⟨new, hNeeds⟩)
  exact isEncodable_of_mem_announced
    (fault?_of_mem_updateFound env _ (apart_jobsFound hNodup hFound)) hShown

end Searched

/--
**When a check predicts the update.** Whatever the directory holds, a check of it leaves all
files as they are, and an update of the same disk changes just the lock files that a search
of the directory finds, of modules of the build, with valid UTF-8 that is not in step. The
check predicts the update iff all that is to be written and told can be encoded, and then
both announce the same lock files in the same order, the check exits with one iff it
announces any, and each ends up with the bytes of the update of its text with unified line
ends. Where a new text cannot be encoded, the update ends with an error, announces nothing,
and leaves the file empty. It takes half of a surrogate pair in the build for that.
-/
theorem update_check_predicts_iff (depth : Nat) (env : Environment) (call : UpdateCall)
    {inside : Listing} (hBuild : Build.load depth d (Path.ofText call.snapshot) = .ok b)
    (hRoot : d.entry call.root = .ok (.folder inside)) :
    ∃ root, d.absolute call.root = .ok root ∧
      let check := update depth env d { call with check := true }
      let plain := update depth env d { call with check := false }
      Leaves d b root check plain ∧
      ((∃ changed, Predicts d b root check plain changed) ↔
        ∀ p new, NeedsUpdate d b root p new →
          Utf8.IsEncodable new ∧ Utf8.IsEncodable (shownBelow root p)) ∧
      (∀ p new, NeedsUpdate d b root p new → ¬ Utf8.IsEncodable new →
        (∃ e, plain.escaped = some (.update (.noBytes e))) ∧ plain.announced "updated" = [] ∧
          plain.disk.read p = .ok []) ∧
      ((∀ e ∈ b.projects, e.2.IsEncodable) →
        ∀ p new, NeedsUpdate d b root p new → Utf8.IsEncodable new) := by
  obtain ⟨v, hDocument⟩ := Build.exists_document_of_load hBuild
  obtain ⟨root, hPlace, hFolder⟩ := isFolder_of_entry hRoot
  have hLoad : loadBuild depth d call.snapshot = .ok b := by rw [loadBuild, hBuild]
  refine ⟨root, hPlace, ?_⟩
  cases hPaths : discover d root with
  -- a search that fails ends both runs before there are jobs
  | error e =>
    have hRun (check : Bool) : update depth env d { call with check := check } =
        Outcome.escape d (.path e) := by
      simp only [update, hLoad, hPlace, hPaths]
    have hNone {p : Path} {new : Text} : ¬ NeedsUpdate d b root p new :=
      not_needsUpdate_of_discover_eq_error hPaths
    simp only [hRun]
    exact ⟨leaves_of_discover_eq_error hPaths,
      iff_of_true ⟨[], predicts_of_discover_eq_error hPaths⟩ fun _ _ hNeeds => absurd hNeeds hNone,
      fun _ _ hNeeds => absurd hNeeds hNone, fun _ _ _ hNeeds => absurd hNeeds hNone⟩
  | ok paths =>
    have hRun (check : Bool) : update depth env d { call with check := check } =
        updateFound env d { call with check := check } b root paths := by
      simp only [update, hLoad, hPlace, hPaths]
    obtain ⟨hNodup, hFound⟩ := discover_found hFolder hPaths
    have hLeaves := leaves_updateFound env call hDocument hPaths hNodup hFound
    simp only [hRun]
    refine ⟨hLeaves, ⟨?_, predicts_updateFound env call hDocument hPaths hNodup hFound⟩, ?_, ?_⟩
    · rintro ⟨changed, hPredicts⟩ p new hNeeds
      exact isEncodable_of_predicts env call hNodup hFound hPredicts hNeeds
    · intro p new hNeeds hNew
      -- the new text belongs to a job, and this job or another one cannot write
      obtain ⟨j, hj, hNot⟩ : ∃ j ∈ jobsFound b root paths, ¬ j.IsWritable b.siblings d := by
        by_contra hNone
        refine hNew ((forall_isWritable_iff hPaths).1 (fun j hj => ?_) p new hNeeds)
        exact not_not.1 fun hNot => hNone ⟨j, hj, hNot⟩
      obtain ⟨hEscaped, hAnnounced⟩ :=
        updateFound_of_not_isWritable env call hNodup hFound hj hNot
      refine ⟨hEscaped, hAnnounced, ?_⟩
      rw [hLeaves.written p new hNeeds, Utf8.bytesOf_of_not_isEncodable hNew]
    · exact fun hProjects p new => isEncodable_of_needsUpdate hProjects

private def tagged (artifact : Text) : Project where
  name := "core".text
  group := none
  configurations := [⟨"api".text, true, [⟨"g".text, artifact, "2".text⟩]⟩]

private def taggedBuild (artifact : Text) : Build := ⟨[("lib".text, tagged artifact)], by simp⟩

private def taggedSnapshot (artifact : Text) : Json.Value :=
  .object [("modules".text, .array [.object [
    ("path".text, .string "lib".text),
    ("name".text, .string "core".text),
    ("configurations".text, .array [.object [
      ("name".text, .string "api".text),
      ("resolved".text, .array [.object [
        ("group".text, .string "g".text),
        ("artifact".text, .string artifact),
        ("version".text, .string "2".text)]])]])]])]

private def taggedTree (artifact : Text) : Disk where
  root := .file "s.json".text (Utf8.bytesOf (Json.write (taggedSnapshot artifact)))
    (.folder "lib".text
      (.file lockFileName (Utf8.bytesOf "g:a:1=api\r\nempty=\r\n".text) .nil)
      (.file lockFileName [0xff] .nil))

private def taggedCall (check : Bool) : UpdateCall := ⟨"s.json".text, ".".text, check, none⟩

theorem update_check_predicts_iff_tagged :
    Build.load 10 (taggedTree "a".text) (Path.ofText "s.json".text) = .ok (taggedBuild "a".text) ∧
    (taggedTree "a".text).entry ".".text = .ok (.folder (taggedTree "a".text).root) ∧
    ∃ root, (taggedTree "a".text).absolute ".".text = .ok root ∧
      let check := update 10 {} (taggedTree "a".text) (taggedCall true)
      let plain := update 10 {} (taggedTree "a".text) (taggedCall false)
      Leaves (taggedTree "a".text) (taggedBuild "a".text) root check plain ∧
      ((∃ changed, Predicts (taggedTree "a".text) (taggedBuild "a".text) root check plain changed) ↔
        ∀ p new, NeedsUpdate (taggedTree "a".text) (taggedBuild "a".text) root p new →
          Utf8.IsEncodable new ∧ Utf8.IsEncodable (shownBelow root p)) ∧
      (∀ p new, NeedsUpdate (taggedTree "a".text) (taggedBuild "a".text) root p new →
        ¬ Utf8.IsEncodable new →
        (∃ e, plain.escaped = some (.update (.noBytes e))) ∧ plain.announced "updated" = [] ∧
          plain.disk.read p = .ok []) ∧
      ((∀ e ∈ (taggedBuild "a".text).projects, e.2.IsEncodable) →
        ∀ p new, NeedsUpdate (taggedTree "a".text) (taggedBuild "a".text) root p new →
          Utf8.IsEncodable new) :=
  have hBuild : Build.load 10 (taggedTree "a".text) (Path.ofText "s.json".text) =
      .ok (taggedBuild "a".text) := by
    decide +kernel
  have hRoot : (taggedTree "a".text).entry ".".text = .ok (.folder (taggedTree "a".text).root) := by rfl
  ⟨hBuild, hRoot, update_check_predicts_iff 10 {} (taggedCall true) hBuild hRoot⟩

private def halfTree : Disk := taggedTree [.half 0]

private def halfLock : Path := Path.root.append ["lib".text, lockFileName]

/-- A half of a pair in the name of an artifact: the check announces a lock file
that the update empties, without a word about it. -/
theorem not_predicts_of_half_in_artifact :
    Build.load 10 halfTree (Path.ofText "s.json".text) = .ok (taggedBuild [.half 0]) ∧
    halfTree.absolute ".".text = .ok Path.root ∧
    halfTree.read halfLock = .ok (Utf8.bytesOf "g:a:1=api\r\nempty=\r\n".text) ∧
    (update 10 {} halfTree (taggedCall true)).announced "outdated" = ["lib/gradle.lockfile".text] ∧
    (update 10 {} halfTree (taggedCall true)).code = 1 ∧
    (update 10 {} halfTree (taggedCall false)).announced "updated" = [] ∧
    (update 10 {} halfTree (taggedCall false)).escaped =
      some (.update (.noBytes ⟨.half 0, 2, 3⟩)) ∧
    (update 10 {} halfTree (taggedCall false)).disk.read halfLock = .ok [] ∧
    ¬ ∃ changed, Predicts halfTree (taggedBuild [.half 0]) Path.root
      (update 10 {} halfTree (taggedCall true)) (update 10 {} halfTree (taggedCall false)) changed := by
  have hOutdated : (update 10 {} halfTree (taggedCall true)).announced "outdated" =
      ["lib/gradle.lockfile".text] := by decide +kernel
  have hUpdated : (update 10 {} halfTree (taggedCall false)).announced "updated" = [] := by
    decide +kernel
  refine ⟨by decide +kernel, by rfl, by rfl, hOutdated, by decide +kernel, hUpdated,
    by decide +kernel, by decide +kernel, ?_⟩
  rintro ⟨changed, h⟩
  have hSame := h.outdated.trans h.updated.symm
  rw [hOutdated, hUpdated] at hSame
  exact absurd hSame (by simp)

end Command

end Lockstep
