import Lockstep.LockFile.OnDisk
import Lockstep.Proofs.Files.Apart
import Lockstep.Proofs.Files.Places
import Lockstep.Proofs.LockFile.Idempotent

/-!
# Lockstep — plans and runs of a job

What a job plans, it plans by the file of its path alone (`plan_congr`). For a lock
file there are three cases (`plan_cases`): it is skipped, kept or replaced. A plan
that is carried out writes to that file or does nothing at all (`carryOut_cases`).

A run has a result in each of these cases (`run_eq_skip`, `run_eq_keep`,
`run_eq_replace`), but for one: a new text with half of a surrogate pair in it cannot
be written (`IsWritable`, `exists_run_eq_noBytes`). It takes a project with such a
half to bring one into a file (`isWritable_of_isEncodable`).
-/

namespace Lockstep

-- ---------------------------------------------------------------------------
-- Reading
-- ---------------------------------------------------------------------------

namespace LockFile

variable {d : Disk} {p : Path}

theorem load_congr {d' : Disk} (h : d'.read p = d.read p) : load d' p = load d p := by
  simp only [load, h]

/-- A text is loaded if the bytes of the file are a text of which it is the one with
unified line ends. -/
theorem load_eq_ok_iff {text : Text} :
    load d p = .ok text ↔
      ∃ bytes raw, d.read p = .ok bytes ∧ Utf8.decode bytes = .ok raw ∧ raw.unifyLineEnds = text := by
  unfold load
  cases d.read p with
  | error e => simp
  | ok bytes =>
    cases hDecode : Utf8.decode bytes with
    | error e => simp [hDecode]
    | ok raw => simp [hDecode]

/-- What is loaded was read from bytes, and has bytes again. -/
theorem isEncodable_of_load {text : Text} (h : load d p = .ok text) : Utf8.IsEncodable text := by
  obtain ⟨bytes, raw, -, hDecode, rfl⟩ := load_eq_ok_iff.1 h
  have hRaw := Utf8.isEncodable_iff.1 ⟨bytes, Utf8.decode_eq_ok_iff.1 hDecode⟩
  refine Utf8.isEncodable_iff.2 fun c hc => ?_
  rcases Text.mem_unifyLineEnds hc with rfl | hc
  · rfl
  · exact hRaw c hc

/-- That a lock file is not read is reported, unless no file can have its path.
Bytes that are no text are among what is reported. -/
theorem isReported_of_load_eq_error {why : Unreadable} (hText : IsPathText p.text)
    (h : load d p = .error why) : why.isReported = true := by
  unfold load at h
  cases hRead : d.read p with
  -- bytes that are no text are reported, whatever they are
  | ok bytes =>
    rw [hRead] at h
    cases hDecode : Utf8.decode bytes with
    | ok raw => simp [hDecode] at h
    | error e =>
      simp only [hDecode, Except.error.injEq] at h
      rw [← h, Unreadable.isReported]
  | error e =>
    simp only [hRead, Except.error.injEq] at h
    rw [← h]
    exact (Disk.isReported_iff_of_read_eq_error hRead).2 hText

end LockFile

-- ---------------------------------------------------------------------------
-- The first step
-- ---------------------------------------------------------------------------

namespace Job

variable {i j : Job} {siblings : List Sibling} {write : Bool} {d d' : Disk} {plan plan' : Plan}

/-- A job plans by what it reads and by nothing else on the disk. -/
theorem plan_congr (h : d'.read j.path = d.read j.path) :
    j.plan siblings d' = j.plan siblings d := by
  simp only [Job.plan, LockFile.load_congr h]

/-- A job for a file of another name is refused before anything is read. -/
theorem plan_eq_refuse (hName : isLockFile j.path = false) : j.plan siblings d = .refuse := by
  rw [Job.plan, hName]
  rfl

/-- What is planned for a lock file. It is skipped if it cannot be read, kept if it
is in step, and else replaced; an update always has an answer, so that there is no
fourth case. -/
theorem plan_cases (siblings : List Sibling) (d : Disk) (hName : isLockFile j.path = true)
    (hText : IsPathText j.path.text) :
    (∃ why, LockFile.load d j.path = .error why ∧ j.plan siblings d = .skip why) ∨
    (∃ text, LockFile.load d j.path = .ok text ∧
      LockFile.update text j.project siblings = .ok none ∧ j.plan siblings d = .keep text) ∨
    ∃ text new, LockFile.load d j.path = .ok text ∧
      LockFile.update text j.project siblings = .ok (some new) ∧
      j.plan siblings d = .replace text new := by
  unfold Job.plan
  cases hLoad : LockFile.load d j.path with
  | error why =>
    -- the path is one that a file can have, so that the job is not broken off
    have hWhy := LockFile.isReported_of_load_eq_error hText hLoad
    exact Or.inl ⟨why, rfl, by simp [hName, hWhy]⟩
  | ok text =>
    obtain ⟨answer, hUpdate⟩ := LockFile.exists_update_eq_ok text j.project siblings
    cases answer with
    | none => exact Or.inr (Or.inl ⟨text, rfl, hUpdate, by simp [hName, hUpdate]⟩)
    | some new => exact Or.inr (Or.inr ⟨text, new, rfl, hUpdate, by simp [hName, hUpdate]⟩)

/-- A job whose new text, if there is one, can be encoded. -/
def IsWritable (j : Job) (siblings : List Sibling) (d : Disk) : Prop :=
  ∀ text new, LockFile.load d j.path = .ok text →
    LockFile.update text j.project siblings = .ok (some new) → Utf8.IsEncodable new

/-- It takes a half of a surrogate pair in the project to spoil a text that was read. -/
theorem isWritable_of_isEncodable (siblings : List Sibling) (d : Disk) (h : j.project.IsEncodable) :
    j.IsWritable siblings d := by
  intro text new hLoad hUpdate
  rw [LockFile.eq_written_of_update_eq_some hUpdate]
  exact LockFile.isEncodable_written_reconcile (LockFile.isEncodable_of_load hLoad) h

/-- A job that writes has a result if and only if its new text can be encoded. -/
theorem resultOfNew_true_eq_ok_iff {new : Text} :
    (∃ r, j.resultOfNew true new = .ok r) ↔ Utf8.IsEncodable new := by
  unfold resultOfNew Utf8.IsEncodable
  cases Utf8.encode new <;> simp

/-- A new text that can be encoded is the result, whether it is written or not. -/
theorem resultOfNew_of_isEncodable {new : Text} (write : Bool) (h : Utf8.IsEncodable new) :
    j.resultOfNew write new = .ok ⟨j.path, new, true, false⟩ := by
  obtain ⟨bytes, hBytes⟩ := h
  unfold resultOfNew
  rw [hBytes]
  cases write <;> rfl

-- ---------------------------------------------------------------------------
-- The second step
-- ---------------------------------------------------------------------------

/-- A plan that is carried out writes to the file of the job or does nothing at all. -/
theorem carryOut_cases (j : Job) (write : Bool) (plan : Plan) :
    (∃ content, ∀ d, j.carryOut write d plan = d.write j.path content) ∨
      ∀ d, j.carryOut write d plan = d := by
  cases plan with
  | replace old new =>
    cases write with
    | true => exact Or.inl ⟨Utf8.bytesOf new, fun d => rfl⟩
    | false => exact Or.inr fun d => rfl
  | _ => exact Or.inr fun d => rfl

theorem resolve_carryOut (j : Job) (write : Bool) (d : Disk) (plan : Plan) (t : Text) :
    (j.carryOut write d plan).resolve t = d.resolve t := by
  rcases j.carryOut_cases write plan with ⟨content, h⟩ | h
  · rw [h, Disk.resolve_write]
  · rw [h]

theorem read_carryOut_of_apart (h : ¬ d.SamePlace i.path j.path) :
    (i.carryOut write d plan).read j.path = d.read j.path := by
  rcases i.carryOut_cases write plan with ⟨content, hWrite⟩ | hKeep
  · rw [hWrite, Disk.read_write_of_apart h]
  · rw [hKeep]

/-- The plans of jobs with different files can be carried out in either order. -/
theorem carryOut_comm (h : ¬ d.SamePlace i.path j.path) :
    j.carryOut write (i.carryOut write d plan) plan' =
      i.carryOut write (j.carryOut write d plan') plan := by
  rcases i.carryOut_cases write plan with ⟨content, hi⟩ | hi
  · rcases j.carryOut_cases write plan' with ⟨content', hj⟩ | hj
    · rw [hi, hj, hj, hi, Disk.write_comm h]
    · rw [hj, hj]
  · rw [hi, hi]

theorem contents?_carryOut {place : List Text} (h : d.resolve j.path.text ≠ .ok place) :
    (j.carryOut write d plan).contents? place = d.contents? place := by
  rcases j.carryOut_cases write plan with ⟨content, hWrite⟩ | hKeep
  · rw [hWrite, Disk.contents?_write h]
  · rw [hKeep]

-- ---------------------------------------------------------------------------
-- Both steps
-- ---------------------------------------------------------------------------

section Run

variable {text new : Text}

/-- A lock file that cannot be read is skipped, and the disk is left as it is. -/
theorem run_eq_skip {why : Unreadable} (hName : isLockFile j.path = true)
    (hLoad : LockFile.load d j.path = .error why) (hWhy : why.isReported = true) :
    j.run siblings write d = (.ok ⟨j.path, [], false, true⟩, d) := by
  have hPlan : j.plan siblings d = .skip why := by
    unfold plan
    simp only [hName, hLoad, hWhy, Bool.not_true, Bool.false_eq_true, if_false, if_true]
  rw [run, hPlan]
  rfl

/-- A lock file that is in step is kept, and the disk is left as it is. -/
theorem run_eq_keep (hName : isLockFile j.path = true) (hLoad : LockFile.load d j.path = .ok text)
    (hUpdate : LockFile.update text j.project siblings = .ok none) :
    j.run siblings write d = (.ok ⟨j.path, text, false, false⟩, d) := by
  have hPlan : j.plan siblings d = .keep text := by
    unfold plan
    simp only [hName, hLoad, hUpdate, Bool.not_true, Bool.false_eq_true, if_false]
  rw [run, hPlan]
  rfl

/-- A lock file that is not in step is replaced, on the disk only if the job writes. -/
theorem run_eq_replace (write : Bool) (hName : isLockFile j.path = true)
    (hLoad : LockFile.load d j.path = .ok text)
    (hUpdate : LockFile.update text j.project siblings = .ok (some new)) :
    j.run siblings write d =
      (j.resultOfNew write new, if write then d.write j.path (Utf8.bytesOf new) else d) := by
  have hPlan : j.plan siblings d = .replace text new := by
    unfold plan
    simp only [hName, hLoad, hUpdate, Bool.not_true, Bool.false_eq_true, if_false]
  rw [run, hPlan]
  rfl

/-- A job is run without a result if its new text cannot be encoded. -/
theorem exists_run_eq_noBytes (hName : isLockFile j.path = true) (h : ¬ j.IsWritable siblings d) :
    ∃ e, (j.run siblings true d).1 = .error (.noBytes e) := by
  simp only [IsWritable, not_forall] at h
  obtain ⟨text, new, hLoad, hUpdate, hNew⟩ := h
  rw [run_eq_replace true hName hLoad hUpdate]
  cases hBytes : Utf8.encode new with
  | ok bytes => exact absurd ⟨bytes, hBytes⟩ hNew
  | error e => exact ⟨e, by simp only [resultOfNew, hBytes]⟩

/-- Whether it writes or not, a job has the same result if its new text can be
encoded. A check therefore sees what the update will answer. -/
theorem run_fst_of_isWritable (write : Bool) (hName : isLockFile j.path = true)
    (hText : IsPathText j.path.text) (h : j.IsWritable siblings d) :
    (j.run siblings write d).1 = (j.run siblings false d).1 := by
  rcases plan_cases siblings d hName hText with ⟨why, -, hPlan⟩ | ⟨text, -, -, hPlan⟩ |
    ⟨text, new, hLoad, hUpdate, hPlan⟩
  · rw [run, run, hPlan]
    rfl
  · rw [run, run, hPlan]
    rfl
  · have hNew := h text new hLoad hUpdate
    rw [run_eq_replace write hName hLoad hUpdate, run_eq_replace false hName hLoad hUpdate,
      resultOfNew_of_isEncodable write hNew, resultOfNew_of_isEncodable false hNew]

end Run

end Job

end Lockstep
