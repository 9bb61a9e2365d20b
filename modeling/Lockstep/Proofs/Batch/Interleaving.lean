import Lockstep.Proofs.Batch.Settled

/-!
# Lockstep — interleaved jobs

The steps of the jobs of a batch may come in any order. If no two jobs are about the
same file, this makes no difference: a job reads its file as it was at the start,
whoever has written before, and writes to different files may change places.

What holds throughout a schedule is `Reached`: each job is as far as its number of
turns says, with the plan it would make on the first disk, and the disk is the first
one on which the finished jobs have carried out these plans, in some order. One step
keeps this (`Reached.advance`), and so does a whole schedule (`Reached.runSchedule`).

* `runSchedule_ends`, `updateAll_ends` — the answers and the disk in the end.
* `runSchedule_oneByOne` — all schedules in which every job has its two steps.
-/

namespace Lockstep

namespace Batch

variable {siblings : List Sibling} {write : Bool} {jobs : List Job} {first d : Disk}

-- ---------------------------------------------------------------------------
-- Schedules
-- ---------------------------------------------------------------------------

/-- How far a job is after a number of turns. -/
def stage (turns : Nat) (plan : Plan) : Progress :=
  match turns with
  | 0 => .waiting
  | 1 => .planned plan
  | _ + 2 => .done plan

/-- What holds after the steps of a schedule from the first disk on. -/
structure Reached (siblings : List Sibling) (write : Bool) (jobs : List Job) (first : Disk)
    (past : List Nat) (s : State) : Prop where
  progress : ∀ i, s.progress[i]? =
    jobs[i]?.map fun j => stage (past.count i) (j.plan siblings first)
  disk : ∃ finished : List Nat, finished.Nodup ∧
    (∀ i, i ∈ finished ↔ i < jobs.length ∧ 2 ≤ past.count i) ∧
    s.disk = (finished.filterMap (jobs[·]?)).foldl (settle siblings write first) first

/-- Before the first step no job has had a turn, and the disk is the first one. -/
theorem reached_start (siblings : List Sibling) (write : Bool) (jobs : List Job) (first : Disk) :
    Reached siblings write jobs first [] (start jobs first) where
  progress i := by
    rw [start, List.getElem?_map]
    rfl
  disk := ⟨[], List.nodup_nil, by simp, rfl⟩

variable {past : List Nat} {s : State} {i : Nat} {j : Job}

theorem count_concat (past : List Nat) (i k : Nat) :
    (past ++ [i]).count k = past.count k + if i = k then 1 else 0 := by
  rw [List.count_append, List.count_singleton]
  simp

/-- A job that has not finished still reads its file as it was at first. Only jobs
that have finished wrote anything, and none of them is about the same file; so it
does not matter at which moment of a schedule the job comes to read. -/
theorem Reached.read (h : Reached siblings write jobs first past s) (hApart : Apart first jobs)
    (hj : jobs[i]? = some j) (hCount : past.count i < 2) :
    s.disk.read j.path = first.read j.path := by
  obtain ⟨finished, -, hMem, hDisk⟩ := h.disk
  rw [hDisk]
  refine read_foldl_settle (fun t => rfl) fun k hk => ?_
  obtain ⟨n, hn, hnk⟩ := List.mem_filterMap.1 hk
  have hne : n ≠ i := by
    rintro rfl
    have hDone := ((hMem n).1 hn).2
    omega
  exact hApart.of_ne hnk hj hne

/-- After a turn only the job whose turn it was is further than before. -/
theorem Reached.progress_set (h : Reached siblings write jobs first past s) (hj : jobs[i]? = some j)
    {p : Progress} (hp : stage (past.count i + 1) (j.plan siblings first) = p) (k : Nat) :
    (s.progress.set i p)[k]? =
      jobs[k]?.map fun j => stage ((past ++ [i]).count k) (j.plan siblings first) := by
  have hProgress := h.progress i
  rw [hj, Option.map_some] at hProgress
  have hi : i < s.progress.length := (List.getElem?_eq_some_iff.1 hProgress).1
  by_cases hk : i = k
  · subst hk
    rw [List.getElem?_set_self hi, hj, Option.map_some, count_concat, if_pos rfl, hp]
  · rw [List.getElem?_set_ne hk, h.progress, count_concat, if_neg hk, Nat.add_zero]

/-- A turn of a job that is done, or of no job at all, changes neither the progress
nor the disk. A schedule may therefore give a job more turns than its two. -/
theorem Reached.idle (h : Reached siblings write jobs first past s)
    (hIdle : i < jobs.length → 2 ≤ past.count i) :
    Reached siblings write jobs first (past ++ [i]) s := by
  obtain ⟨finished, hNodup, hMem, hDisk⟩ := h.disk
  refine ⟨fun k => ?_, finished, hNodup, fun k => ?_, hDisk⟩
  · rw [h.progress, count_concat]
    -- the counts differ for this job alone, and there two turns count as much as three
    by_cases hk : i = k
    · subst hk
      cases hj : jobs[i]? with
      | none => rfl
      | some j =>
        have hTwo := hIdle (List.getElem?_eq_some_iff.1 hj).1
        obtain ⟨n, hn⟩ := Nat.exists_eq_add_of_le' hTwo
        rw [hn, if_pos rfl]
        rfl
    · rw [if_neg hk, Nat.add_zero]
  · rw [hMem, count_concat]
    refine and_congr_right fun hLen => ?_
    by_cases hk : i = k
    · subst hk
      have hTwo := hIdle hLen
      rw [if_pos rfl]
      omega
    · rw [if_neg hk, Nat.add_zero]

/-- The first turn of a job: it reads its file and plans, and nothing is written.
The plan is stated as the one of the first disk, which `Reached.read` justifies. -/
theorem Reached.first_turn (h : Reached siblings write jobs first past s) (hj : jobs[i]? = some j)
    (hCount : past.count i = 0) :
    Reached siblings write jobs first (past ++ [i])
      { s with progress := s.progress.set i (.planned (j.plan siblings first)) } := by
  obtain ⟨finished, hNodup, hMem, hDisk⟩ := h.disk
  refine ⟨h.progress_set hj (by rw [hCount, stage]), finished, hNodup, fun k => ?_, hDisk⟩
  rw [hMem, count_concat]
  refine and_congr_right fun _ => ?_
  by_cases hk : i = k
  · subst hk
    rw [hCount, if_pos rfl]
    omega
  · rw [if_neg hk, Nat.add_zero]

/-- The second turn of a job: its plan is carried out, and it joins the jobs
that have finished. It is put at the end of them, so that the disk is one more
step of the fold. -/
theorem Reached.second_turn (h : Reached siblings write jobs first past s) (hj : jobs[i]? = some j)
    (hCount : past.count i = 1) :
    Reached siblings write jobs first (past ++ [i])
      ⟨settle siblings write first s.disk j, s.progress.set i (.done (j.plan siblings first))⟩ := by
  obtain ⟨finished, hNodup, hMem, hDisk⟩ := h.disk
  have hi : i < jobs.length := (List.getElem?_eq_some_iff.1 hj).1
  have hNew : i ∉ finished := fun hOld => by
    have hDone := ((hMem i).1 hOld).2
    omega
  refine ⟨h.progress_set hj (by rw [hCount, stage]), finished ++ [i], ?_, fun k => ?_, ?_⟩
  · rw [List.nodup_append]
    refine ⟨hNodup, by simp, fun k hk n hn => ?_⟩
    rw [List.mem_singleton.1 hn]
    exact fun heq => hNew (heq ▸ hk)
  · -- the jobs that have finished are those with two turns, now with this one
    rw [List.mem_append, List.mem_singleton, hMem, count_concat]
    by_cases hk : i = k
    · subst hk
      rw [hCount, if_pos rfl]
      omega
    · rw [if_neg hk, Nat.add_zero]
      exact or_iff_left (Ne.symm hk)
  · rw [List.filterMap_append, List.foldl_append, ← hDisk]
    simp [hj]

/-- One step of a schedule keeps the invariant. What the job reads in it is what it
would read on the first disk, so that its plan is the one that it makes there. -/
theorem Reached.advance (h : Reached siblings write jobs first past s) (hApart : Apart first jobs)
    (i : Nat) :
    Reached siblings write jobs first (past ++ [i]) (advance siblings write jobs s i) := by
  have hProgress := h.progress i
  unfold Batch.advance
  cases hj : jobs[i]? with
  | none =>
    have hLen : jobs.length ≤ i := List.getElem?_eq_none_iff.1 hj
    exact h.idle fun hi => by omega
  | some j =>
    rw [hj, Option.map_some] at hProgress
    -- by the number of turns that the job has had: none, one, or more than it needs
    match hCount : past.count i with
    | 0 =>
      rw [hCount, stage] at hProgress
      have hPlan : j.plan siblings s.disk = j.plan siblings first :=
        Job.plan_congr (h.read hApart hj (by omega))
      simp only [hProgress, hPlan]
      exact h.first_turn hj hCount
    | 1 =>
      rw [hCount, stage] at hProgress
      simp only [hProgress]
      exact h.second_turn hj hCount
    | n + 2 =>
      rw [hCount, stage] at hProgress
      simp only [hProgress]
      exact h.idle fun _ => by omega

/-- A whole schedule keeps the invariant, by induction on its steps. -/
theorem Reached.runSchedule (h : Reached siblings write jobs first past s) (hApart : Apart first jobs)
    (schedule : List Nat) :
    Reached siblings write jobs first (past ++ schedule)
      (runSchedule siblings write jobs s schedule) := by
  induction schedule generalizing past s with
  | nil => simpa [Batch.runSchedule] using h
  | cons i rest ih =>
    have hRest := ih (h.advance hApart i)
    rw [List.append_assoc, List.singleton_append] at hRest
    exact hRest

-- ---------------------------------------------------------------------------
-- The end of a schedule
-- ---------------------------------------------------------------------------

/-- After two turns of each job all of them are done, with the plans of the first disk. -/
theorem Reached.progress_eq (h : Reached siblings write jobs first past s)
    (hAll : ∀ i < jobs.length, 2 ≤ past.count i) :
    s.progress = jobs.map fun j => .done (j.plan siblings first) := by
  apply List.ext_getElem?
  intro i
  rw [h.progress, List.getElem?_map]
  cases hj : jobs[i]? with
  | none => rfl
  | some j =>
    have hTwo := hAll i (List.getElem?_eq_some_iff.1 hj).1
    obtain ⟨n, hn⟩ := Nat.exists_eq_add_of_le' hTwo
    rw [hn]
    rfl

/-- The jobs at all places are the jobs. -/
theorem filterMap_getElem?_range (jobs : List Job) :
    (List.range jobs.length).filterMap (jobs[·]?) = jobs := by
  induction jobs with
  | nil => rfl
  | cons j rest ih =>
    have hRest : (List.range rest.length).filterMap (fun i => (j :: rest)[i + 1]?) = rest := ih
    rw [List.length_cons, List.range_succ_eq_map, List.filterMap_cons, List.filterMap_map]
    exact congrArg (j :: ·) hRest

/-- After two turns of each job all plans have been carried out. They were in the
order of the second turns, which is some permutation of the jobs;
`foldl_settle_perm` puts them back in their own order. -/
theorem Reached.disk_eq (h : Reached siblings write jobs first past s) (hApart : Apart first jobs)
    (hAll : ∀ i < jobs.length, 2 ≤ past.count i) :
    s.disk = jobs.foldl (settle siblings write first) first := by
  obtain ⟨finished, hNodup, hMem, hDisk⟩ := h.disk
  have hRange : finished.Perm (List.range jobs.length) := by
    refine (List.perm_ext_iff_of_nodup hNodup List.nodup_range).2 fun i => ?_
    rw [hMem, List.mem_range]
    exact and_iff_left_of_imp (hAll i)
  have hPerm : (finished.filterMap (jobs[·]?)).Perm jobs := by
    have hFilter := hRange.filterMap (jobs[·]?)
    rwa [filterMap_getElem?_range] at hFilter
  rw [hDisk]
  exact foldl_settle_perm hPerm (hApart.perm hPerm) fun t => rfl

/-- When all jobs are done, the answers are those of their plans. -/
theorem answers_of_progress_eq {plans : Job → Plan} (h : s.progress = jobs.map fun j => .done (plans j)) :
    answers write jobs s = jobs.map fun j => j.result write (plans j) := by
  unfold answers
  rw [h]
  clear h
  induction jobs with
  | nil => rfl
  | cons j rest ih =>
    rw [List.map_cons, List.map_cons, List.zip_cons_cons, List.filterMap_cons]
    exact congrArg (j.result write (plans j) :: ·) ih

/-- Jobs one after the other have two turns each. -/
theorem two_le_count_sequential {count i : Nat} (h : i < count) : 2 ≤ (sequential count).count i := by
  unfold sequential
  induction count with
  | zero => exact absurd h (Nat.not_lt_zero i)
  | succ count ih =>
    rw [List.range_succ, List.flatMap_append, List.count_append]
    rcases Nat.lt_succ_iff_lt_or_eq.1 h with hlt | rfl
    · exact Nat.le_add_right_of_le (ih hlt)
    · simp

-- ---------------------------------------------------------------------------
-- Results of a batch
-- ---------------------------------------------------------------------------

/-- A job for a file of another name answers with an error, and leaves the disk as it is. -/
theorem run_eq_refuse {d : Disk} {j : Job} (hName : isLockFile j.path = false) :
    j.run siblings write d = (.error (.notLockFile j.path), d) := by
  rw [Job.run, Job.plan_eq_refuse hName]
  rfl

/-- A job for a lock file has a result, unless it were to write what cannot be
encoded. A file that cannot be read is a result, too: the job skips it. -/
theorem exists_run_eq_ok (siblings : List Sibling) (write : Bool) {d : Disk} {j : Job}
    (hName : isLockFile j.path = true)
    (hText : IsPathText j.path.text) (hWrite : write = true → j.IsWritable siblings d) :
    ∃ result, (j.run siblings write d).1 = .ok result := by
  rcases Job.plan_cases siblings d hName hText with ⟨why, -, hPlan⟩ | ⟨text, -, -, hPlan⟩ |
    ⟨text, new, hLoad, hUpdate, hPlan⟩
  · exact ⟨_, by rw [Job.run, hPlan]; rfl⟩
  · exact ⟨_, by rw [Job.run, hPlan]; rfl⟩
  · rw [Job.run, hPlan]
    cases write with
    | false => exact ⟨_, rfl⟩
    | true => exact Job.resultOfNew_true_eq_ok_iff.2 (hWrite rfl text new hLoad hUpdate)

/-- The results of jobs on one disk are all of them, or the error of the first one
misnamed. Jobs after that one have been run all the same, but their results are
not returned. -/
theorem collect_run (siblings : List Sibling) (write : Bool) (d : Disk)
    (hText : ∀ j ∈ jobs, IsPathText j.path.text)
    (hWrite : write = true → ∀ j ∈ jobs, j.IsWritable siblings d) :
    match jobs.find? fun j => !isLockFile j.path with
    | some j => collect (jobs.map fun j => (j.run siblings write d).1) = .error (.notLockFile j.path)
    | none => ∃ results,
      collect (jobs.map fun j => (j.run siblings write d).1) = .ok results ∧
      results.map .ok = jobs.map fun j => (j.run siblings write d).1 := by
  induction jobs with
  | nil => exact ⟨[], rfl, rfl⟩
  | cons j rest ih =>
    have hRest := ih (fun k hk => hText k (List.mem_cons_of_mem j hk))
      fun h k hk => hWrite h k (List.mem_cons_of_mem j hk)
    cases hName : isLockFile j.path with
    | false =>
      rw [List.find?_cons_of_pos (by rw [hName]; rfl), List.map_cons, run_eq_refuse hName, collect]
    | true =>
      obtain ⟨result, hResult⟩ := exists_run_eq_ok siblings write hName (hText j List.mem_cons_self)
        fun h => hWrite h j List.mem_cons_self
      rw [List.find?_cons_of_neg (by rw [hName]; decide), List.map_cons, hResult, collect]
      -- the first job has a result, so that the rest decides
      cases hFind : rest.find? fun j => !isLockFile j.path with
      | some first =>
        rw [hFind] at hRest
        simp only [hRest, Except.map]
      | none =>
        rw [hFind] at hRest
        obtain ⟨results, hCollect, hMap⟩ := hRest
        simp only [hCollect, Except.map]
        exact ⟨result :: results, rfl, by rw [List.map_cons, hMap]⟩

/-- A batch in which a new text cannot be encoded has no results. It ends by the
error of the first such job, which need not be the one that is given. -/
theorem exists_collect_eq_noBytes {j : Job} (hNames : ∀ j ∈ jobs, isLockFile j.path = true)
    (hText : ∀ j ∈ jobs, IsPathText j.path.text) (hj : j ∈ jobs) (h : ¬ j.IsWritable siblings d) :
    ∃ e, collect (jobs.map fun j => (j.run siblings true d).1) = .error (.noBytes e) := by
  induction jobs with
  | nil => exact absurd hj List.not_mem_nil
  | cons first rest ih =>
    obtain ⟨hName, hNames⟩ := List.forall_mem_cons.1 hNames
    obtain ⟨hFirst, hText⟩ := List.forall_mem_cons.1 hText
    rw [List.map_cons]
    by_cases hWrite : first.IsWritable siblings d
    · -- the first job has a result, so that the one that has none is among the rest
      obtain ⟨result, hResult⟩ :=
        exists_run_eq_ok siblings true hName hFirst fun _ => hWrite
      have hRest : j ∈ rest := (List.mem_cons.1 hj).resolve_left fun heq => h (heq ▸ hWrite)
      obtain ⟨e, he⟩ := ih hNames hText hRest
      exact ⟨e, by rw [hResult, collect, he]; rfl⟩
    · obtain ⟨e, he⟩ := Job.exists_run_eq_noBytes hName hWrite
      exact ⟨e, by rw [he, collect]⟩

-- ---------------------------------------------------------------------------
-- All schedules
-- ---------------------------------------------------------------------------

/-- The answers of a batch, and the disk that it leaves, by the plans of the first disk. -/
theorem runSchedule_ends (siblings : List Sibling) (write : Bool) {schedule : List Nat}
    (hApart : Apart d jobs)
    (hTurns : ∀ i < jobs.length, 2 ≤ schedule.count i) :
    answers write jobs (runSchedule siblings write jobs (start jobs d) schedule) =
        jobs.map (fun j => (j.run siblings write d).1) ∧
      (runSchedule siblings write jobs (start jobs d) schedule).disk =
        jobs.foldl (settle siblings write d) d := by
  have hReached := (reached_start siblings write jobs d).runSchedule hApart schedule
  rw [List.nil_append] at hReached
  exact ⟨answers_of_progress_eq (hReached.progress_eq hTurns), hReached.disk_eq hApart hTurns⟩

/-- What the batch of an update returns, and what it leaves, by the plans of the first disk. -/
theorem updateAll_ends (siblings : List Sibling) (write : Bool) (hApart : Apart d jobs) :
    (updateAll siblings write jobs d).results =
        collect (jobs.map fun j => (j.run siblings write d).1) ∧
      (updateAll siblings write jobs d).disk = jobs.foldl (settle siblings write d) d := by
  obtain ⟨hAnswers, hDisk⟩ := runSchedule_ends siblings write hApart
    fun i hi => two_le_count_sequential hi
  exact ⟨by rw [← hAnswers]; rfl, by rw [← hDisk]; rfl⟩

end Batch

end Lockstep
