import Lockstep.Command.Program
import Lockstep.Proofs.Files.Places
import Lockstep.Proofs.Json.Limits
import Lockstep.Proofs.Text.Utf8

/-!
# Lockstep — snapshots that are reported

A snapshot file should give a build or an error that is reported to the user, in
whatever state the file is. Which errors are reported is decided by the stage
that fails: the file, its characters, its JSON, or its document.

* `isAnswer_ofBytes_iff` — a file is answered iff it is a text within the limits of the reader.
* `load_reports_iff`     — when a load is answered, and what a run makes of one that is not.
-/

namespace Lockstep

namespace Build

/-- A load with a build, or with an error that is reported as one of the snapshot. -/
def IsAnswer (r : Except SnapshotError Build) : Prop :=
  (∃ b, r = .ok b) ∨ ∃ e, r = .error e ∧ e.isReported = true

theorem isAnswer_ok (b : Build) : IsAnswer (.ok b) := Or.inl ⟨b, rfl⟩

/-- A load that failed is an answer if its error is reported. -/
theorem isAnswer_error_iff {e : SnapshotError} :
    IsAnswer (.error e) ↔ e.isReported = true := by
  constructor
  · rintro (⟨b, hb⟩ | ⟨e', he, hReported⟩)
    · exact absurd hb (by simp)
    · exact Except.error.inj he ▸ hReported
  · exact fun h => Or.inr ⟨e, rfl, h⟩

/-- Of the refusals of the reader, those for the grammar are reported, and those for
its limits are not. -/
theorem isReported_notJson_iff {path : Path} {content : Text} {e : Json.ReadError} :
    (SnapshotError.notJson path content e).isReported = true ↔
      ∃ fault offset, e = .malformed fault offset := by
  cases e <;> simp [SnapshotError.isReported]

/-- What is wrong with a document is always reported. -/
theorem isAnswer_ofDocument (document : Json.Value) :
    IsAnswer ((ofDocument document).mapError .document) := by
  cases ofDocument document with
  | ok b => exact isAnswer_ok b
  | error e => exact isAnswer_error_iff.2 rfl

variable {bytes : List UInt8} {t : Text}

/-- Bytes that are a text are read as this text, with unified line ends, and then as
a document. -/
theorem ofBytes_of_encode (depth : Nat) (path : Path) (h : Utf8.encode t = .ok bytes) :
    ofBytes depth path bytes =
      match Json.read depth t.unifyLineEnds with
      | .error e => .error (.notJson path t.unifyLineEnds e)
      | .ok document => (ofDocument document).mapError .document := by
  unfold ofBytes
  simp only [Utf8.decode_of_encode h]
  cases Json.read depth t.unifyLineEnds with
  | error e => rfl
  | ok document => cases h : ofDocument document <;> simp [h, Except.mapError]

/-- A text is answered if and only if it is within the limits of the reader. That it
may be no document at all, or none that is accepted, makes no difference. -/
theorem isAnswer_ofBytes_of_encode_iff (depth : Nat) (path : Path) (h : Utf8.encode t = .ok bytes) :
    IsAnswer (ofBytes depth path bytes) ↔ Json.IsWithinLimits depth t.unifyLineEnds := by
  rw [ofBytes_of_encode depth path h, Json.IsWithinLimits]
  cases Json.read depth t.unifyLineEnds with
  | error e =>
    simp only [Except.error.injEq, forall_eq']
    rw [isAnswer_error_iff, isReported_notJson_iff]
  | ok document => exact iff_of_true (isAnswer_ofDocument document) (by simp)

/-- The contents of a file are answered iff they are a text within the limits of the
reader. Any other mistake in them is found further on, and reported there. -/
theorem isAnswer_ofBytes_iff (depth : Nat) (path : Path) (bytes : List UInt8) :
    IsAnswer (ofBytes depth path bytes) ↔
      ∃ t, Utf8.encode t = .ok bytes ∧ Json.IsWithinLimits depth t.unifyLineEnds := by
  cases hDecode : Utf8.decode bytes with
  | ok t =>
    have hEncode := Utf8.decode_eq_ok_iff.1 hDecode
    rw [isAnswer_ofBytes_of_encode_iff depth path hEncode]
    constructor
    · exact fun h => ⟨t, hEncode, h⟩
    · rintro ⟨u, hu, h⟩
      have hSame : t = u := Except.ok.inj (hDecode.symm.trans (Utf8.decode_of_encode hu))
      rwa [hSame]
  -- bytes that are no text are not the bytes of any, and the error of decoding is not reported
  | error e =>
    have hNot : ofBytes depth path bytes = .error (.notText e) := by rw [ofBytes, hDecode]
    rw [hNot, isAnswer_error_iff]
    refine iff_of_false (by simp [SnapshotError.isReported]) ?_
    rintro ⟨t, hEncode, -⟩
    simp [Utf8.decode_of_encode hEncode] at hDecode

/-- A load is answered if a file can have its path, and what is read there, if
anything is, is answered. -/
theorem isAnswer_load_iff (depth : Nat) (d : Disk) (path : Path) :
    IsAnswer (load depth d path) ↔
      IsPathText path.text ∧ ∀ bytes, d.read path = .ok bytes →
        ∃ t, Utf8.encode t = .ok bytes ∧ Json.IsWithinLimits depth t.unifyLineEnds := by
  rw [load]
  cases hRead : d.read path with
  | error e =>
    simp only [reduceCtorEq, false_implies, implies_true, and_true]
    rw [isAnswer_error_iff]
    exact Disk.isReported_iff_of_read_eq_error hRead
  | ok bytes =>
    simp only [Except.ok.injEq, forall_eq']
    rw [isAnswer_ofBytes_iff, and_iff_right (Disk.isPathText_of_read_eq_ok hRead)]

end Build

namespace Command

/-- A run ends without a report of the error iff the load of its snapshot is no
answer. A reported error ends the run with a message and the code of a failure. -/
theorem exists_loadBuild_eq_escape_iff (depth : Nat) (d : Disk) (snapshot : Text) :
    (∃ e, loadBuild depth d snapshot = .error (Outcome.escape d (.snapshot e))) ↔
      ¬ Build.IsAnswer (Build.load depth d (Path.ofText snapshot)) := by
  rw [loadBuild]
  cases Build.load depth d (Path.ofText snapshot) with
  | ok b => exact iff_of_false (by simp) (not_not.2 (Build.isAnswer_ok b))
  | error e =>
    rw [Build.isAnswer_error_iff]
    cases hReported : e.isReported with
    | true =>
      refine iff_of_false ?_ (by simp)
      rintro ⟨e', he⟩
      simp [hReported, Outcome.failure, Outcome.escape] at he
    | false => exact iff_of_true ⟨e, by simp [hReported]⟩ (by simp)

/--
**Which snapshots are reported.** A snapshot file gives a build, or an error that is
reported as one of the snapshot, iff a file can have its path and, if there is a file to
read, its bytes are a text that the reader does not refuse for one of its limits. How deep
a document may be nested is up to the stack that is left to the reader; whatever this
depth is, a text with no more openings and no long run of digits is not refused for a
limit, and one that begins with more openings, or is a number of too many digits, is. A run
of the program ends without a report iff the load has neither a build nor such an error.
-/
theorem load_reports_iff (depth : Nat) (d : Disk) (path : Path) :
    (Build.IsAnswer (Build.load depth d path) ↔
      IsPathText path.text ∧ ∀ bytes, d.read path = .ok bytes →
        ∃ t, Utf8.encode t = .ok bytes ∧ Json.IsWithinLimits depth t.unifyLineEnds) ∧
    (∀ t, t.countP Json.isOpening ≤ depth →
      (∀ n, Json.HasDigits n t → n ≤ Json.maxDigits) → Json.IsWithinLimits depth t) ∧
    (∀ n after, depth < n → ¬ Json.IsWithinLimits depth (List.replicate n (char '[') ++ after)) ∧
    (∀ t, (∀ c ∈ t, Json.isDigit c = true) → t.head? ≠ some (char '0') → Json.maxDigits < t.length →
      ¬ Json.IsWithinLimits depth t) ∧
    ∀ snapshot, Path.ofText snapshot = path →
      ((∃ e, loadBuild depth d snapshot = .error (Outcome.escape d (.snapshot e))) ↔
        ¬ Build.IsAnswer (Build.load depth d path)) := by
  -- the first four parts are facts about loading and about the reader, and the last is about a run
  refine ⟨Build.isAnswer_load_iff depth d path, fun _ => Json.isWithinLimits_of_few,
    fun _ after hn => Json.not_isWithinLimits_of_nested hn after,
    fun _ => Json.not_isWithinLimits_of_digits, ?_⟩
  rintro snapshot rfl
  exact exists_loadBuild_eq_escape_iff depth d snapshot

private def strayByte : Disk := { root := .file "snapshot.json".text [0xff] .nil }

private def strayError : SnapshotError := .notText ⟨0xff, 0, 1, .badStart⟩

/-- A file whose one byte is no character is not reported, and ends the run, at
whatever depth it begins. -/
theorem load_of_stray_byte :
    strayByte.read (Path.ofText "snapshot.json".text) = .ok [0xff] ∧
    ∀ depth,
      Build.load depth strayByte (Path.ofText "snapshot.json".text) = .error strayError ∧
      ¬ Build.IsAnswer (Build.load depth strayByte (Path.ofText "snapshot.json".text)) ∧
      update depth {} strayByte ⟨"snapshot.json".text, ".".text, false, none⟩ =
        Outcome.escape strayByte (.snapshot strayError) := by
  refine ⟨by rfl, fun depth => ?_⟩
  have hLoad : Build.load depth strayByte (Path.ofText "snapshot.json".text) = .error strayError := by
    rfl
  refine ⟨hLoad, ?_, by rfl⟩
  rw [hLoad, Build.isAnswer_error_iff]
  decide

end Command

end Lockstep
