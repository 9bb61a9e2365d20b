import Lockstep.Proofs.LockFile.Plan
import Lockstep.Proofs.LockFile.SecondRun

/-!
# Lockstep — line ends of files and of texts

A file is read with a line feed for each of its line ends, a text is taken as it is.
If carriage returns stand before line feeds only (`returnsEndLines`), both have the
same lines (`linesOf_unifyLineEnds`), and the same text results from an update. Any
other carriage return ends a line of the file but not of the text.

* `revised_unifyLineEnds` — what results from both.
* `Job.followsText_iff`   — when the update of a file is the one of its text.
-/

namespace Lockstep

-- ---------------------------------------------------------------------------
-- Carriage returns before line feeds
-- ---------------------------------------------------------------------------

namespace Text

variable {t : Text}

/-- Whether a line feed stands after each carriage return. -/
def returnsEndLines : Text → Bool
  | [] => true
  | c :: rest => (c != char '\r' || rest.head? == some (char '\n')) && returnsEndLines rest

/-- A letter that is not the carriage return of a line end is no carriage return. -/
theorem ne_return_of_returnsEndLines {c : Letter} {rest : Text}
    (h : returnsEndLines (c :: rest) = true)
    (hOther : ∀ below, c = char '\r' → rest = char '\n' :: below → False) :
    c ≠ char '\r' ∧ returnsEndLines rest = true := by
  simp only [returnsEndLines, Bool.and_eq_true, Bool.or_eq_true, bne_iff_ne, beq_iff_eq] at h
  refine ⟨?_, h.2⟩
  rintro rfl
  obtain ⟨below, hBelow⟩ := List.head?_eq_some_iff.1 (h.1.resolve_left fun hne => hne rfl)
  exact hOther below rfl hBelow

theorem dropLastChar_cons_of_ne {c x : Letter} (h : x ≠ c) (t : Text) :
    dropLastChar c (x :: t) = x :: dropLastChar c t := by
  cases t with
  | nil => simp [dropLastChar, h]
  | cons y rest =>
    rw [dropLastChar, dropLastChar, List.getLast?_cons_cons]
    split
    · rfl
    · rfl

theorem map_dropLastChar_consHead {c x : Letter} (h : x ≠ c) {pieces : List Text}
    (hne : pieces ≠ []) :
    (consHead x pieces).map (dropLastChar c) = consHead x (pieces.map (dropLastChar c)) := by
  cases pieces with
  | nil => exact absurd rfl hne
  | cons piece rest => rw [consHead, List.map_cons, List.map_cons, consHead, dropLastChar_cons_of_ne h]

/-- The lines of the unified text are those of the text without the carriage returns
at their ends. It takes a line feed after each carriage return: any other would
become a line end of its own. -/
theorem splitOn_unifyLineEnds (h : t.returnsEndLines = true) :
    splitOn (char '\n') t.unifyLineEnds = (splitOn (char '\n') t).map (dropLastChar (char '\r')) := by
  fun_induction unifyLineEnds t with
  | case1 => rfl
  | case2 rest ih =>
    have hRest : returnsEndLines rest = true := by simpa [returnsEndLines] using h
    simp [splitOn, consHead, dropLastChar, ih hRest]
  | case3 c rest hOther ih =>
    obtain ⟨hc, hRest⟩ := ne_return_of_returnsEndLines h hOther
    rw [if_neg hc, splitOn, splitOn, ih hRest]
    split
    · rw [List.map_cons]
      rfl
    · rw [map_dropLastChar_consHead hc (splitOn_ne_nil (char '\n') rest)]

/-- The unified text ends as the text does. A carriage return at the very end is
excluded, since it would become a line feed. -/
theorem getLast?_unifyLineEnds (h : t.returnsEndLines = true) :
    t.unifyLineEnds.getLast? = t.getLast? := by
  fun_induction unifyLineEnds t with
  | case1 => rfl
  | case2 rest ih =>
    have hRest : returnsEndLines rest = true := by simpa [returnsEndLines] using h
    rw [List.getLast?_cons_cons, List.getLast?_cons, List.getLast?_cons, ih hRest]
  | case3 c rest hOther ih =>
    obtain ⟨hc, hRest⟩ := ne_return_of_returnsEndLines h hOther
    rw [if_neg hc, List.getLast?_cons, List.getLast?_cons, ih hRest]

/-- Line ends are blank, whichever they are. -/
theorem isAllBlank_unifyLineEnds (t : Text) : t.unifyLineEnds.isAllBlank = t.isAllBlank := by
  fun_induction unifyLineEnds t with
  | case1 => rfl
  | case2 rest ih =>
    rw [isAllBlank, isAllBlank, List.all_cons, List.all_cons, List.all_cons, ← isAllBlank,
      ← isAllBlank, ih]
    rfl
  | case3 c rest _ ih =>
    have hBlank : isBlank (if c = char '\r' then char '\n' else c) = isBlank c := by
      split
      · next hc => rw [hc]; decide
      · rfl
    rw [isAllBlank, isAllBlank, List.all_cons, List.all_cons, hBlank, ← isAllBlank, ← isAllBlank, ih]

end Text

-- ---------------------------------------------------------------------------
-- Lock files with such line ends
-- ---------------------------------------------------------------------------

namespace LockFile

variable {t : Text}

/-- Line ends of one and of two characters make the same lines. -/
theorem linesOf_unifyLineEnds (h : t.returnsEndLines = true) :
    linesOf t.unifyLineEnds = linesOf t := by
  have hKept : ∀ piece ∈ t.unifyLineEnds.splitOn (char '\n'), Text.dropLastChar (char '\r') piece = piece := by
    intro piece hPiece
    refine Text.dropLastChar_eq_self_iff.2 fun hLast => ?_
    have hMem : char '\r' ∈ piece := List.mem_of_getLast? hLast
    exact Text.return_not_mem_unifyLineEnds t (Text.mem_of_mem_piece hPiece hMem)
  rw [linesOf, linesOf, List.map_congr_left hKept, List.map_id', Text.splitOn_unifyLineEnds h]

/-- What an update writes for a text depends on its lines and on whether it ends in
a line feed. -/
theorem revised_unifyLineEnds (h : t.returnsEndLines = true) (p : Project)
    (siblings : List Sibling) :
    revised t.unifyLineEnds p siblings = revised t p siblings := by
  have hParse : parse t.unifyLineEnds = parse t := by
    rw [parse, parse, linesOf_unifyLineEnds h]
  rw [revised, revised, hParse]
  exact written_eq_of_getLast?_iff _ (by rw [Text.getLast?_unifyLineEnds h])

-- ---------------------------------------------------------------------------
-- Revisions
-- ---------------------------------------------------------------------------

/-- A revision is the text itself if it is in step, and else the text that replaces it. -/
theorem revise_eq_ok_iff {p : Project} {siblings : List Sibling} {r : Revision} :
    revise t p siblings = .ok r ↔
      update t p siblings = .ok none ∧ r = ⟨t, false⟩ ∨
        ∃ new, update t p siblings = .ok (some new) ∧ r = ⟨new, true⟩ := by
  unfold revise
  cases update t p siblings with
  | error why => simp [Except.map]
  | ok answer => cases answer <;> simp [Except.map, eq_comm]

/-- A blank text is not updated. -/
theorem isAllBlank_of_update_eq_some {p : Project} {siblings : List Sibling} {new : Text}
    (h : update t p siblings = .ok (some new)) : t.isAllBlank = false := by
  cases hBlank : t.isAllBlank with
  | false => rfl
  | true =>
    rw [update, if_pos hBlank, Except.ok.injEq] at h
    exact absurd h (by simp)

end LockFile

-- ---------------------------------------------------------------------------
-- The update of a file
-- ---------------------------------------------------------------------------

namespace Job

variable {j : Job} {siblings : List Sibling} {d : Disk} {bytes : List UInt8} {t : Text}

/-- The update of the file is that of a text: the same answer, and the new text in the file. -/
def FollowsText (j : Job) (siblings : List Sibling) (d : Disk) (t : Text) : Prop :=
  ∃ r left, LockFile.revise t j.project siblings = .ok r ∧
    j.run siblings true d = (.ok ⟨j.path, r.text, r.changed, false⟩, left) ∧
    ∃ written, Utf8.encode r.text = .ok written ∧ left.read j.path = .ok written

/-- A file whose bytes are a text is loaded as this text with unified line ends. -/
theorem load_of_decode (hRead : d.read j.path = .ok bytes) (hDecode : Utf8.decode bytes = .ok t) :
    LockFile.load d j.path = .ok t.unifyLineEnds :=
  LockFile.load_eq_ok_iff.2 ⟨bytes, t, hRead, hDecode, rfl⟩

/-- The update of a file is that of its text with unified line ends, unless
the new text cannot be encoded. The file then has no bytes left, and the job
has no result. -/
theorem run_eq_revise_unifyLineEnds (siblings : List Sibling) (hName : isLockFile j.path = true)
    (hRead : d.read j.path = .ok bytes) (hDecode : Utf8.decode bytes = .ok t) :
    ∃ r left, LockFile.revise t.unifyLineEnds j.project siblings = .ok r ∧
      (j.IsWritable siblings d →
        j.run siblings true d = (.ok ⟨j.path, r.text, r.changed, false⟩, left)) ∧
      (¬ j.IsWritable siblings d → ∃ e, j.run siblings true d = (.error (.noBytes e), left)) ∧
      left.read j.path = .ok (if r.changed then Utf8.bytesOf r.text else bytes) := by
  have hLoad := load_of_decode hRead hDecode
  obtain ⟨answer, hUpdate⟩ := LockFile.exists_update_eq_ok t.unifyLineEnds j.project siblings
  rw [LockFile.revise, hUpdate]
  -- a text in step is kept and nothing has to be encoded; another one is replaced
  cases answer with
  | none =>
    have hWritable : j.IsWritable siblings d := by
      intro text new hLoad' hNew
      obtain rfl := Except.ok.inj (hLoad.symm.trans hLoad')
      exact absurd (hUpdate.symm.trans hNew) (by simp)
    exact ⟨_, d, rfl, fun _ => run_eq_keep hName hLoad hUpdate, fun h => absurd hWritable h, hRead⟩
  | some new =>
    have hRun := run_eq_replace true hName hLoad hUpdate
    rw [if_pos rfl] at hRun
    refine ⟨_, _, rfl, fun h => ?_, fun h => ?_, Disk.read_write hRead (Utf8.bytesOf new)⟩
    · rw [hRun, resultOfNew_of_isEncodable true (h _ new hLoad hUpdate)]
    · obtain ⟨e, he⟩ := exists_run_eq_noBytes hName h
      refine ⟨e, hRun.trans (Prod.ext ?_ rfl)⟩
      rw [hRun] at he
      exact he

/-- The update of a file is that of its text iff what it has to write can be
encoded, and both texts have one revision, which is what the file holds already if
it is not written. -/
theorem followsText_iff_revise (hName : isLockFile j.path = true) (hRead : d.read j.path = .ok bytes)
    (hDecode : Utf8.decode bytes = .ok t) :
    j.FollowsText siblings d t ↔
      j.IsWritable siblings d ∧ ∃ r, LockFile.revise t j.project siblings = .ok r ∧
        LockFile.revise t.unifyLineEnds j.project siblings = .ok r ∧
        (r.changed = false → Utf8.encode r.text = .ok bytes) := by
  obtain ⟨r, left, hRevise, hRun, hFail, hLeft⟩ :=
    run_eq_revise_unifyLineEnds siblings hName hRead hDecode
  constructor
  · rintro ⟨r', left', hRevise', hRun', written, hWritten, hLeft'⟩
    have hWritable : j.IsWritable siblings d := by
      by_contra hNot
      obtain ⟨e, he⟩ := hFail hNot
      exact absurd (he.symm.trans hRun') (by simp)
    rw [hRun hWritable, Prod.mk.injEq, Except.ok.injEq, FileResult.mk.injEq] at hRun'
    obtain ⟨⟨-, hText, hChanged, -⟩, rfl⟩ := hRun'
    -- both results are about one path, so that the revisions in them are the same
    have hSame : r = r' := by
      cases r
      cases r'
      simp only at hText hChanged
      rw [hText, hChanged]
    subst hSame
    refine ⟨hWritable, r, hRevise', hRevise, fun hKept => ?_⟩
    rw [hLeft, hKept, Except.ok.injEq] at hLeft'
    exact hWritten.trans (congrArg Except.ok hLeft'.symm)
  · rintro ⟨hWritable, r', hRevise', hUnified, hKept⟩
    obtain rfl := Except.ok.inj (hRevise.symm.trans hUnified)
    refine ⟨r, left, hRevise', hRun hWritable, ?_⟩
    rw [hLeft]
    cases hChanged : r.changed with
    | true =>
      rcases LockFile.revise_eq_ok_iff.1 hUnified with ⟨-, rfl⟩ | ⟨new, hUpdate, rfl⟩
      · exact absurd hChanged (by simp)
      · have hNew := hWritable _ new (load_of_decode hRead hDecode) hUpdate
        exact ⟨_, Utf8.encode_eq_bytesOf hNew, rfl⟩
    | false => exact ⟨bytes, hKept hChanged, rfl⟩

/-- The update of a file is that of its text iff nothing in it keeps the new
text from being written, and the text has no carriage returns or both updates
write the same. -/
theorem followsText_iff (hName : isLockFile j.path = true) (hRead : d.read j.path = .ok bytes)
    (hDecode : Utf8.decode bytes = .ok t) :
    j.FollowsText siblings d t ↔
      j.IsWritable siblings d ∧
        (char '\r' ∉ t ∨ ∃ new, LockFile.update t.unifyLineEnds j.project siblings = .ok (some new) ∧
          LockFile.update t j.project siblings = .ok (some new)) := by
  rw [followsText_iff_revise hName hRead hDecode]
  refine and_congr_right fun _ => ⟨?_, ?_⟩
  · rintro ⟨r, hRevise, hUnified, -⟩
    -- a text with carriage returns is not its unified text, so that one of the updates would not
    -- keep it
    by_cases hReturn : char '\r' ∈ t
    · right
      rcases LockFile.revise_eq_ok_iff.1 hUnified with ⟨-, rfl⟩ | ⟨new, hUpdate, rfl⟩
      · rcases LockFile.revise_eq_ok_iff.1 hRevise with ⟨-, heq⟩ | ⟨new, -, heq⟩
        · have hText : t.unifyLineEnds = t := congrArg Revision.text heq
          rw [← hText] at hReturn
          exact absurd hReturn (Text.return_not_mem_unifyLineEnds t)
        · exact absurd (congrArg Revision.changed heq) (by simp)
      · rcases LockFile.revise_eq_ok_iff.1 hRevise with ⟨-, heq⟩ | ⟨new', hUpdate', heq⟩
        · exact absurd (congrArg Revision.changed heq) (by simp)
        · have hText : new = new' := congrArg Revision.text heq
          exact ⟨new, hUpdate, hText ▸ hUpdate'⟩
    · exact Or.inl hReturn
  · rintro (hReturn | ⟨new, hUpdate, hUpdate'⟩)
    · -- without carriage returns the unified text is the text itself
      rw [Text.unifyLineEnds_eq_self hReturn]
      obtain ⟨answer, hUpdate⟩ := LockFile.exists_update_eq_ok t j.project siblings
      cases answer with
      | none =>
        have hRevise := LockFile.revise_eq_ok_iff.2 (Or.inl ⟨hUpdate, rfl⟩)
        exact ⟨_, hRevise, hRevise, fun _ => Utf8.decode_eq_ok_iff.1 hDecode⟩
      | some new =>
        have hRevise := LockFile.revise_eq_ok_iff.2 (Or.inr ⟨new, hUpdate, rfl⟩)
        exact ⟨_, hRevise, hRevise, fun h => absurd h (by simp)⟩
    · exact ⟨⟨new, true⟩, LockFile.revise_eq_ok_iff.2 (Or.inr ⟨new, hUpdate', rfl⟩),
        LockFile.revise_eq_ok_iff.2 (Or.inr ⟨new, hUpdate, rfl⟩), fun h => absurd h (by simp)⟩

/-- A file whose carriage returns stand before line feeds is updated like its text
if it has none of them, or is written at all. A text in step with carriage returns
is kept as a file, and rewritten with line feeds as a text. -/
theorem followsText_iff_of_returnsEndLines (hAccepted : j.project.IsAccepted)
    (hName : isLockFile j.path = true) (hRead : d.read j.path = .ok bytes)
    (hDecode : Utf8.decode bytes = .ok t) (hEnds : t.returnsEndLines = true) :
    j.FollowsText siblings d t ↔
      j.IsWritable siblings d ∧
        (char '\r' ∉ t ∨ LockFile.update t.unifyLineEnds j.project siblings ≠ .ok none) := by
  rw [followsText_iff hName hRead hDecode]
  refine and_congr_right fun _ => ?_
  by_cases hReturn : char '\r' ∈ t
  · simp only [hReturn, not_true_eq_false, false_or]
    constructor
    · rintro ⟨new, hUpdate, -⟩
      simp [hUpdate]
    · intro hChanged
      obtain ⟨answer, hUpdate⟩ := LockFile.exists_update_eq_ok t.unifyLineEnds j.project siblings
      cases answer with
      | none => exact absurd hUpdate hChanged
      | some new =>
        refine ⟨new, hUpdate, ?_⟩
        have hBlank : t.isAllBlank = false := by
          rw [← Text.isAllBlank_unifyLineEnds]
          exact LockFile.isAllBlank_of_update_eq_some hUpdate
        have hNew : new = LockFile.revised t j.project siblings := by
          rw [← LockFile.revised_unifyLineEnds hEnds]
          exact LockFile.eq_written_of_update_eq_some hUpdate
        -- neither the unified text nor an accepted project has a carriage return to bring into the
        -- new text
        have hFree : char '\r' ∉ new := by
          rw [LockFile.eq_written_of_update_eq_some hUpdate]
          exact LockFile.not_mem_written_reconcile (by decide) (by decide)
            (Text.return_not_mem_unifyLineEnds t) hAccepted.return_not_mem
        have hne : LockFile.revised t j.project siblings ≠ t := fun heq => by
          rw [hNew, heq] at hFree
          exact hFree hReturn
        rw [LockFile.update_eq hBlank, ← LockFile.revised, if_neg hne, hNew]
  · simp [hReturn]

/--
**When the update of a file is that of its text.** A file is updated as its text with
unified line ends, and ends up with the bytes of the result, or its own if it is in
step; only a new text that cannot be encoded makes it fail. This is the update of the
text itself iff there is no such failure, and the text has no carriage returns or both
updates write the same text. Where carriage returns stand before line feeds only, they
do unless the unified text is in step; elsewhere a line of the text may be two lines of
the file. A project without halves of surrogate pairs brings no failure.
-/
theorem run_followsText_iff {v : Json.Value} {b : Build} {path : Text}
    (hName : isLockFile j.path = true) (hRead : d.read j.path = .ok bytes)
    (hDecode : Utf8.decode bytes = .ok t) (hBuild : Build.ofDocument v = .ok b)
    (hProject : (path, j.project) ∈ b.projects) :
    (∃ r left, LockFile.revise t.unifyLineEnds j.project siblings = .ok r ∧
      (j.IsWritable siblings d →
        j.run siblings true d = (.ok ⟨j.path, r.text, r.changed, false⟩, left)) ∧
      (¬ j.IsWritable siblings d → ∃ e, j.run siblings true d = (.error (.noBytes e), left)) ∧
      left.read j.path = .ok (if r.changed then Utf8.bytesOf r.text else bytes)) ∧
    (j.FollowsText siblings d t ↔
      j.IsWritable siblings d ∧
        (char '\r' ∉ t ∨ ∃ new, LockFile.update t.unifyLineEnds j.project siblings = .ok (some new) ∧
          LockFile.update t j.project siblings = .ok (some new))) ∧
    (t.returnsEndLines = true →
      (j.FollowsText siblings d t ↔
        j.IsWritable siblings d ∧
          (char '\r' ∉ t ∨ LockFile.update t.unifyLineEnds j.project siblings ≠ .ok none))) ∧
    (j.project.IsEncodable → j.IsWritable siblings d) := by
  -- that the project was accepted only matters for texts with returns at line ends
  have hAccepted := Build.isAccepted_of_ofDocument hBuild _ hProject
  exact ⟨run_eq_revise_unifyLineEnds siblings hName hRead hDecode,
    followsText_iff hName hRead hDecode,
    followsText_iff_of_returnsEndLines hAccepted hName hRead hDecode,
    isWritable_of_isEncodable siblings d⟩

private def apiSnapshot : Json.Value :=
  .object [("modules".text, .array [.object [
    ("name".text, .string "app".text),
    ("configurations".text, .array [.object [
      ("name".text, .string "api".text),
      ("resolved".text, .array [.object [
        ("group".text, .string "g".text),
        ("artifact".text, .string "a".text),
        ("version".text, .string "1".text)]])]])]])]

private def apiJob : Job where
  path := Path.ofText "gradle.lockfile".text
  project := ⟨"app".text, none, [⟨"api".text, true, [⟨"g".text, "a".text, "1".text⟩]⟩]⟩

private def holding (t : Text) : Disk where
  root := .file "gradle.lockfile".text (Utf8.bytesOf t) .nil
  proper := rfl

private def outdatedText : Text := "g:a:0=api\r\nempty=\r\n".text

theorem run_followsText_iff_outdated :
    isLockFile apiJob.path = true ∧
    (holding outdatedText).read apiJob.path = .ok (Utf8.bytesOf outdatedText) ∧
    Utf8.decode (Utf8.bytesOf outdatedText) = .ok outdatedText ∧
    Build.ofDocument apiSnapshot = .ok ⟨[([], apiJob.project)], by decide⟩ ∧
    (∃ r left, LockFile.revise outdatedText.unifyLineEnds apiJob.project [] = .ok r ∧
      (apiJob.IsWritable [] (holding outdatedText) →
        apiJob.run [] true (holding outdatedText) =
          (.ok ⟨apiJob.path, r.text, r.changed, false⟩, left)) ∧
      (¬ apiJob.IsWritable [] (holding outdatedText) →
        ∃ e, apiJob.run [] true (holding outdatedText) = (.error (.noBytes e), left)) ∧
      left.read apiJob.path =
        .ok (if r.changed then Utf8.bytesOf r.text else Utf8.bytesOf outdatedText)) ∧
    (apiJob.FollowsText [] (holding outdatedText) outdatedText ↔
      apiJob.IsWritable [] (holding outdatedText) ∧
        (char '\r' ∉ outdatedText ∨
          ∃ new, LockFile.update outdatedText.unifyLineEnds apiJob.project [] = .ok (some new) ∧
            LockFile.update outdatedText apiJob.project [] = .ok (some new))) ∧
    (outdatedText.returnsEndLines = true →
      (apiJob.FollowsText [] (holding outdatedText) outdatedText ↔
        apiJob.IsWritable [] (holding outdatedText) ∧
          (char '\r' ∉ outdatedText ∨
            LockFile.update outdatedText.unifyLineEnds apiJob.project [] ≠ .ok none))) ∧
    (apiJob.project.IsEncodable → apiJob.IsWritable [] (holding outdatedText)) :=
  have hName : isLockFile apiJob.path = true := by decide
  have hRead : (holding outdatedText).read apiJob.path = .ok (Utf8.bytesOf outdatedText) := by rfl
  have hDecode : Utf8.decode (Utf8.bytesOf outdatedText) = .ok outdatedText := by rfl
  have hBuild : Build.ofDocument apiSnapshot = .ok ⟨[([], apiJob.project)], by decide⟩ := by rfl
  ⟨hName, hRead, hDecode, hBuild,
    run_followsText_iff hName hRead hDecode hBuild List.mem_cons_self⟩

private def cutText : Text := "# note\rcontinued\n\ng:a:1=api\nempty=\n".text

/-- A comment with a carriage return in it is in step as a text, and loses what
stands after that character in a file. -/
theorem not_followsText_of_return_in_comment :
    Build.ofDocument apiSnapshot = .ok ⟨[([], apiJob.project)], by decide⟩ ∧
    isLockFile apiJob.path = true ∧
    (holding cutText).read apiJob.path = .ok (Utf8.bytesOf cutText) ∧
    Utf8.decode (Utf8.bytesOf cutText) = .ok cutText ∧
    LockFile.revise cutText apiJob.project [] = .ok ⟨cutText, false⟩ ∧
    (apiJob.run [] true (holding cutText)).1 =
      .ok ⟨apiJob.path, "# note\n\ng:a:1=api\nempty=\n".text, true, false⟩ ∧
    ¬ apiJob.FollowsText [] (holding cutText) cutText := by
  have hRevise : LockFile.revise cutText apiJob.project [] = .ok ⟨cutText, false⟩ := by rfl
  have hRun : (apiJob.run [] true (holding cutText)).1 =
      .ok ⟨apiJob.path, "# note\n\ng:a:1=api\nempty=\n".text, true, false⟩ := by rfl
  refine ⟨by rfl, by decide, by rfl, by rfl, hRevise, hRun, ?_⟩
  rintro ⟨r, left, hr, hFollows, -⟩
  rw [hRevise, Except.ok.injEq] at hr
  rw [hFollows, ← hr, Except.ok.injEq, FileResult.mk.injEq] at hRun
  exact absurd hRun.2.2.1 (by decide)

end Job

end Lockstep
