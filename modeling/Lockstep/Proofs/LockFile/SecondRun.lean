import Lockstep.Proofs.Files.ReadWrite
import Lockstep.Proofs.LockFile.AcceptedLines
import Lockstep.Proofs.LockFile.Plan

/-!
# Lockstep — a second run

A job that is run again finds the file as it left it and keeps it, whatever the
file held before. What is on the disk after the first run is read back: its bytes
are those of a text without carriage returns, which an update leaves alone; or there
are none, because the text could not be encoded, and a blank file is left alone too.

* `load_write` — what has been written is loaded as it was.
* `run_run` — the first run, and the second one on the disk that it left.
-/

namespace Lockstep

-- ---------------------------------------------------------------------------
-- Accepted projects
-- ---------------------------------------------------------------------------

namespace Project

variable {p : Project}

/-- An accepted project can be written and read back, if no group starts as comments do. -/
theorem IsAccepted.isPlain (h : p.IsAccepted)
    (hMark : ∀ conf ∈ p.configurations, ∀ d ∈ conf.resolved, ¬ "# ".text <+: d.group) :
    p.IsPlain := by
  intro conf hConf d hd
  exact ((h conf hConf).resolved d hd).isPlain (hMark conf hConf d hd)

/-- The dependencies of an accepted project hold no carriage return, which the check
of the snapshot refuses. -/
theorem IsAccepted.return_not_mem (h : p.IsAccepted) :
    ∀ conf ∈ p.configurations, ∀ d ∈ conf.resolved, char '\r' ∉ d.text := by
  intro conf hConf d hd
  have hToken := (h conf hConf).resolved d hd
  exact Coordinate.not_mem_text (by decide) fun field hField =>
    (hToken field hField).no_separator (char '\r') (by decide)

end Project

-- ---------------------------------------------------------------------------
-- One run
-- ---------------------------------------------------------------------------

/-- Without carriage returns there are no line ends to unify. -/
theorem Text.unifyLineEnds_eq_self {t : Text} (h : char '\r' ∉ t) : t.unifyLineEnds = t := by
  fun_induction unifyLineEnds t with
  | case1 => rfl
  | case2 rest ih => exact absurd List.mem_cons_self h
  | case3 c rest _ ih =>
    rw [List.mem_cons, not_or] at h
    rw [if_neg (Ne.symm h.1), ih h.2]

/-- What has been written is loaded as it was: it is encodable, and has no line
ends to unify. -/
theorem LockFile.load_write {d : Disk} {p : Path} {bytes : List UInt8} {t : Text}
    (hRead : d.read p = .ok bytes) (hEncodable : Utf8.IsEncodable t) (h : char '\r' ∉ t) :
    load (d.write p (Utf8.bytesOf t)) p = .ok t := by
  unfold load
  rw [Disk.read_write hRead]
  simp only [Utf8.decode_bytesOf hEncodable, Text.unifyLineEnds_eq_self h]

namespace Job

variable {j : Job} {siblings : List Sibling} {write : Bool} {d : Disk} {text new : Text}

-- ---------------------------------------------------------------------------
-- The second run
-- ---------------------------------------------------------------------------

/--
**A second run changes nothing.** Whatever bytes the lock file holds, a job with a
project of an accepted build has a result, as long as the project is made of characters;
run again on the disk that it left, it reports no change and leaves that disk as it is. A
file that is no text is skipped both times and never touched.
-/
theorem run_run {v : Json.Value} {b : Build} {path : Text} {bytes : List UInt8} (again : Bool)
    (hName : isLockFile j.path = true) (hRead : d.read j.path = .ok bytes)
    (hBuild : Build.ofDocument v = .ok b) (hProject : (path, j.project) ∈ b.projects)
    (hMark : ∀ conf ∈ j.project.configurations, ∀ c ∈ conf.resolved, ¬ "# ".text <+: c.group) :
    ∃ first second left,
      j.run siblings true d = (first, left) ∧
      j.run siblings again left = (.ok second, left) ∧
      second.changed = false ∧
      (j.project.IsEncodable → ∃ result, first = .ok result) ∧
      ∀ e, Utf8.decode bytes = .error e →
        (∃ result, first = .ok result ∧ result.skipped = true) ∧ second.skipped = true ∧ left = d := by
  have hAccepted := Build.isAccepted_of_ofDocument hBuild _ hProject
  cases hDecode : Utf8.decode bytes with
  | error e =>
    have hLoad : LockFile.load d j.path = .error (.notText j.path e) := by
      simp only [LockFile.load, hRead, hDecode]
    refine ⟨_, _, d, run_eq_skip hName hLoad rfl, run_eq_skip hName hLoad rfl, rfl, ?_, ?_⟩
    · exact fun _ => ⟨_, rfl⟩
    · exact fun _ _ => ⟨⟨_, rfl, rfl⟩, rfl, rfl⟩
  | ok t =>
    have hLoad : LockFile.load d j.path = .ok t.unifyLineEnds := by
      simp only [LockFile.load, hRead, hDecode]
    have hReturn := Text.return_not_mem_unifyLineEnds t
    obtain ⟨answer, hUpdate⟩ := LockFile.exists_update_eq_ok t.unifyLineEnds j.project siblings
    cases answer with
    | none =>
      refine ⟨_, _, d, run_eq_keep hName hLoad hUpdate, run_eq_keep hName hLoad hUpdate, rfl, ?_, ?_⟩
      · exact fun _ => ⟨_, rfl⟩
      · exact fun e he => absurd he (by simp)
    | some new =>
      have hFirst := run_eq_replace true hName hLoad hUpdate
      rw [if_pos rfl] at hFirst
      -- the file holds the new text, or nothing if this could not be encoded; neither is changed
      -- again
      obtain ⟨kept, hReload, hIdle⟩ : ∃ kept,
          LockFile.load (d.write j.path (Utf8.bytesOf new)) j.path = .ok kept ∧
            LockFile.update kept j.project siblings = .ok none := by
        by_cases hNew : Utf8.IsEncodable new
        · refine ⟨new, LockFile.load_write hRead hNew ?_, ?_⟩
          · rw [LockFile.eq_written_of_update_eq_some hUpdate]
            exact LockFile.not_mem_written_reconcile (by decide) (by decide) hReturn
              hAccepted.return_not_mem
          · exact LockFile.update_of_update_eq_some (LockFile.getLast?_of_mem_comments_parse hReturn)
              (hAccepted.isPlain hMark) hUpdate
        · refine ⟨[], ?_, rfl⟩
          rw [Utf8.bytesOf_of_not_isEncodable hNew, LockFile.load, Disk.read_write hRead]
          rfl
      refine ⟨_, _, _, hFirst, run_eq_keep hName hReload hIdle, rfl, fun hEncodable => ?_, ?_⟩
      · refine resultOfNew_true_eq_ok_iff.2 ?_
        exact isWritable_of_isEncodable siblings d hEncodable _ _ hLoad hUpdate
      · exact fun e he => absurd he (by simp)

private def resolver : Json.Value :=
  .object [("modules".text, .array [.object [
    ("name".text, .string "app".text),
    ("configurations".text, .array [.object [
      ("name".text, .string "main".text),
      ("resolved".text, .array [.object [
        ("group".text, .string "org".text),
        ("artifact".text, .string "a".text),
        ("version".text, .string " 2 ".text)]])]])]])]

private def upgrade : Job where
  path := Path.ofText "gradle.lockfile".text
  project := ⟨"app".text, none, [⟨"main".text, true, [⟨"org".text, "a".text, "2".text⟩]⟩]⟩

private def checkout : Disk where
  root := .file "gradle.lockfile".text (Utf8.bytesOf "org:a:1=main\r\nempty=\r\n".text) .nil

theorem run_run_upgrade :
    isLockFile upgrade.path = true ∧
    checkout.read upgrade.path = .ok (Utf8.bytesOf "org:a:1=main\r\nempty=\r\n".text) ∧
    Build.ofDocument resolver = .ok ⟨[([], upgrade.project)], by decide⟩ ∧
    (∀ conf ∈ upgrade.project.configurations, ∀ c ∈ conf.resolved, ¬ "# ".text <+: c.group) ∧
    ∃ first second left,
      upgrade.run [] true checkout = (first, left) ∧
      upgrade.run [] true left = (.ok second, left) ∧
      second.changed = false ∧
      (upgrade.project.IsEncodable → ∃ result, first = .ok result) ∧
      ∀ e, Utf8.decode (Utf8.bytesOf "org:a:1=main\r\nempty=\r\n".text) = .error e →
        (∃ result, first = .ok result ∧ result.skipped = true) ∧ second.skipped = true ∧
          left = checkout :=
  have hName : isLockFile upgrade.path = true := by decide
  have hRead : checkout.read upgrade.path =
      .ok (Utf8.bytesOf "org:a:1=main\r\nempty=\r\n".text) := by rfl
  have hBuild : Build.ofDocument resolver = .ok ⟨[([], upgrade.project)], by decide⟩ := by rfl
  have hMark : ∀ conf ∈ upgrade.project.configurations, ∀ c ∈ conf.resolved,
      ¬ "# ".text <+: c.group := by decide
  ⟨hName, hRead, hBuild, hMark, run_run true hName hRead hBuild List.mem_cons_self hMark⟩

end Job

end Lockstep
