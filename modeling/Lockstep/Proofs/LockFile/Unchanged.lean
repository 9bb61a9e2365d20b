import Lockstep.Proofs.Lock.Agreement
import Lockstep.Proofs.LockFile.Canonical
import Lockstep.Update

/-!
# Lockstep — when an update changes nothing

An update writes the reconciled lock file over the text, and reports no change if
that is the text. This is decided by the text's form and by what it records:

* `written_reconcile_eq_self_iff` — the text is canonical, and its lock is in step
  with the project.
* `written_congr`  — a text depends on the sets of a lock only, not on the order in
  which its coordinates were met.
-/

namespace Lockstep

/-- Locks with the same sets have the same entries, if their texts tell the
coordinates apart. -/
theorem Lock.entries_eq {l l' : Lock} (h : ∀ c ∈ l.locked.keys, ∀ field ∈ c.fields, char ':' ∉ field)
    (h' : ∀ c ∈ l'.locked.keys, ∀ field ∈ c.fields, char ':' ∉ field)
    (hGet : ∀ c, l.locked.get c = l'.locked.get c) : l.entries = l'.entries := by
  refine Text.eq_of_strict (Lock.strict_entries h) (Lock.strict_entries h') ?_
  rintro ⟨c, s⟩
  rw [Lock.mem_entries, Lock.mem_entries, hGet c]

namespace LockFile

/-- A text is written from the comments, the entries and the names with nothing to lock. -/
theorem written_congr {f g : LockFile} (hComments : f.comments = g.comments)
    (hEntries : f.lock.entries = g.lock.entries) (hEmpty : f.lock.empty = g.lock.empty)
    (replaced : Text) : f.written replaced = g.written replaced := by
  have hLines : f.writtenLines = g.writtenLines := by
    rw [writtenLines, writtenLines, gap, gap, hComments, hEntries, hEmpty]
  rw [written, written, hLines]

/-- Lock files with the same comments that record the same about each name are written alike. -/
theorem written_eq_of_agreeOn {f g : LockFile} (hComments : f.comments = g.comments)
    (hf : ∀ c ∈ f.lock.locked.keys, ∀ field ∈ c.fields, char ':' ∉ field)
    (hg : ∀ c ∈ g.lock.locked.keys, ∀ field ∈ c.fields, char ':' ∉ field)
    (hAgree : ∀ n, f.lock.AgreeOn g.lock n) (replaced : Text) :
    f.written replaced = g.written replaced :=
  written_congr hComments (Lock.entries_eq hf hg (Lock.get_eq_of_agreeOn hAgree))
    (Lock.empty_eq_of_agreeOn hAgree) replaced

/-- Of the text that is replaced, nothing but a last line feed counts. -/
theorem written_eq_of_getLast?_iff (f : LockFile) {t u : Text}
    (h : t.getLast? = some (char '\n') ↔ u.getLast? = some (char '\n')) : f.written t = f.written u := by
  simp only [written, h]

-- ---------------------------------------------------------------------------
-- What an update writes
-- ---------------------------------------------------------------------------

variable {p : Project} {siblings : List Sibling} {text : Text}

theorem marked_of_mem_comments_parse {c : Text} (h : c ∈ (parse text).comments) :
    Line.commentMark <+: c ∧ char '\n' ∉ c := by
  obtain ⟨hLine, hMark⟩ := mem_comments_parse.1 h
  exact ⟨hMark, newline_not_mem_of_mem_linesOf hLine⟩

theorem marked_reconcile_parse :
    ∀ c ∈ ((parse text).reconcile p siblings).comments, Line.commentMark <+: c ∧ char '\n' ∉ c :=
  fun _ hc => marked_of_mem_comments_parse hc

/-- A reconciled lock file knows the names that were read and no others, whatever the project says.
-/
theorem isName_of_mem_tracked_reconcile {n : Text}
    (h : n ∈ ((parse text).reconcile p siblings).lock.tracked) : IsName n := by
  have hRead : n ∈ (parse text).lock.tracked := by
    rwa [reconcile, Lock.tracked_reconcile] at h
  exact (isPlain_parse text).names n hRead

theorem ne_nil_of_mem_entries_reconcile {e : Coordinate × NameSet}
    (he : e ∈ ((parse text).reconcile p siblings).lock.entries) : ∀ n ∈ e.2, n ≠ [] :=
  fun _ hn => (isName_of_mem_tracked_reconcile (Lock.mem_tracked_of_mem_entries he hn)).ne_nil

/-- A reconciled lock file always has a text, for none of its names is empty. -/
theorem render_reconcile (text : Text) (p : Project) (siblings : List Sibling) :
    ((parse text).reconcile p siblings).render text =
      .ok (((parse text).reconcile p siblings).written text) :=
  render_eq (fun _ he => ne_nil_of_mem_entries_reconcile he) text

/-- An update writes the reconciled lock file, and reports the text unless it is the
one that was given. -/
theorem update_eq (hBlank : text.isAllBlank = false) :
    update text p siblings =
      .ok (if ((parse text).reconcile p siblings).written text = text then none
        else some (((parse text).reconcile p siblings).written text)) := by
  rw [update, hBlank, render_reconcile]
  rfl

/-- An update never fails. A blank text is left alone, and any other one is written. -/
theorem exists_update_eq_ok (text : Text) (p : Project) (siblings : List Sibling) :
    ∃ answer, update text p siblings = .ok answer := by
  cases hBlank : text.isAllBlank with
  | true => exact ⟨none, by rw [update, if_pos hBlank]⟩
  | false => exact ⟨_, update_eq hBlank⟩

/-- The text that an update of a text with lines results in, whether it is another
one or not. -/
def revised (text : Text) (p : Project) (siblings : List Sibling) : Text :=
  ((parse text).reconcile p siblings).written text

/-- A revision of a text with lines has the text that is written for the
reconciled lock file. -/
theorem exists_revise_eq_ok (hBlank : text.isAllBlank = false) (p : Project)
    (siblings : List Sibling) :
    ∃ r, revise text p siblings = .ok r ∧ r.text = revised text p siblings := by
  rw [revise, update_eq hBlank]
  by_cases h : ((parse text).reconcile p siblings).written text = text
  · rw [if_pos h]
    exact ⟨⟨text, false⟩, rfl, h.symm⟩
  · rw [if_neg h]
    exact ⟨⟨revised text p siblings, true⟩, rfl, rfl⟩

-- ---------------------------------------------------------------------------
-- No change
-- ---------------------------------------------------------------------------

theorem isPlain_reconcile_parse (text : Text) (hp : p.IsPlain) :
    ((parse text).reconcile p siblings).lock.IsPlain :=
  (isPlain_parse text).reconcile hp

/-- A text that is written for its own comments has none with a carriage return at
its end. Such a return is taken off when the text is read, so that writing would not
give it back. -/
theorem isCanonical_of_written_eq_self {f : LockFile} (hLock : f.lock.IsPlain)
    (hText : f.written text = text) (hComments : f.comments = (parse text).comments) :
    IsCanonical text := by
  have hMarked : ∀ c ∈ f.comments, Line.commentMark <+: c ∧ char '\n' ∉ c := fun c hc =>
    marked_of_mem_comments_parse (hComments ▸ hc)
  have hRead := comments_written hMarked hLock text
  rw [hText, ← hComments] at hRead
  refine isCanonical_iff.2 ⟨f, fun c hc => ?_, hLock, hText⟩
  have hKept : f.comments.map id = f.comments.map (Text.dropLastChar (char '\r')) := by
    rw [List.map_id]
    exact hRead
  have hReturn : c = Text.dropLastChar (char '\r') c := List.map_inj_left.1 hKept c hc
  exact ⟨(hMarked c hc).1, (hMarked c hc).2, Text.dropLastChar_eq_self_iff.1 hReturn.symm⟩

/-- A text that an update leaves alone is canonical and in step: what is read from
it is the reconciled lock, with each set as it was. -/
theorem isCanonical_and_inStep_of_written (hp : p.IsPlain)
    (hText : ((parse text).reconcile p siblings).written text = text) :
    IsCanonical text ∧ (parse text).lock.InStep p siblings := by
  have hPlain : ((parse text).reconcile p siblings).lock.IsPlain := isPlain_reconcile_parse text hp
  -- what is read from the written text is what was read from the text before
  have hRead := parse_written marked_reconcile_parse hPlain text
  rw [hText] at hRead
  have hLock : (parse text).lock = ((parse text).lock.reconcile p siblings).tidy :=
    congrArg lock hRead
  refine ⟨isCanonical_of_written_eq_self hPlain hText rfl, Lock.inStep_iff.2 ⟨fun c => ?_, ?_⟩⟩
  · rw [← Lock.get_tidy, ← hLock]
  · exact (congrArg Lock.empty hLock).symm

/-- A text that is canonical and in step is left alone by an update. It is written
for some lock file, which has the comments and the sets of the reconciled one. -/
theorem written_of_isCanonical_of_inStep (hp : p.IsPlain) (hCanonical : IsCanonical text)
    (hStep : (parse text).lock.InStep p siblings) :
    ((parse text).reconcile p siblings).written text = text := by
  obtain ⟨f, hComments, hLock, hText⟩ := isCanonical_iff.1 hCanonical
  have hRead := parse_written_eq hComments hLock text
  rw [hText] at hRead
  -- reconciling leaves the sets alone, so that comments, entries and empty names are those of `f`
  obtain ⟨hGet, hEmpty⟩ := Lock.inStep_iff.1 hStep
  have hCommentsEq : ((parse text).reconcile p siblings).comments = f.comments := by
    rw [reconcile, hRead]
  have hEntries : ((parse text).reconcile p siblings).lock.entries = f.lock.entries := by
    refine Lock.entries_eq (isPlain_reconcile_parse text hp).no_colon hLock.no_colon fun c => ?_
    rw [reconcile, hGet c, hRead]
    exact Lock.get_tidy f.lock c
  have hNames : ((parse text).reconcile p siblings).lock.empty = f.lock.empty := by
    rw [reconcile, hEmpty, hRead]
    rfl
  calc ((parse text).reconcile p siblings).written text
      = f.written text := written_congr hCommentsEq hEntries hNames text
    _ = text := hText

/-- A reconciled lock file is written into the same text iff the text is canonical
and in step. -/
theorem written_reconcile_eq_self_iff (hp : p.IsPlain) :
    ((parse text).reconcile p siblings).written text = text ↔
      IsCanonical text ∧ (parse text).lock.InStep p siblings :=
  ⟨isCanonical_and_inStep_of_written hp, fun h => written_of_isCanonical_of_inStep hp h.1 h.2⟩

/--
**Exact change detection.** An update reports no change iff the text is canonical
and, for each name that it tracks and the project resolves, it records the
coordinates that the project says.
-/
theorem update_eq_none_iff (hBlank : text.isAllBlank = false) (hp : p.IsPlain) :
    update text p siblings = .ok none ↔
      IsCanonical text ∧ (parse text).lock.InStep p siblings := by
  rw [update_eq hBlank, ← written_reconcile_eq_self_iff hp]
  by_cases h : ((parse text).reconcile p siblings).written text = text
  · simp [h]
  · simp [h]

private def pinned : Text := "# kept\n\norg:a:1=main\nempty=test\n".text

private def pinning : Project where
  name := "app".text
  group := some "org".text
  configurations := [
    ⟨"main".text, true, [⟨"org".text, "a".text, "1".text⟩,
      ⟨"org".text, "core".text, "2".text⟩]⟩,
    ⟨"test".text, true, []⟩]

theorem update_eq_none_pinned :
    pinned.isAllBlank = false ∧ pinning.IsPlain ∧
      (update pinned pinning [⟨"org".text, "core".text⟩] = .ok none ↔
        IsCanonical pinned ∧
          (parse pinned).lock.InStep pinning [⟨"org".text, "core".text⟩]) ∧
      update pinned pinning [⟨"org".text, "core".text⟩] = .ok none :=
  have hBlank : pinned.isAllBlank = false := by decide
  have hPlain : pinning.IsPlain := by decide
  ⟨hBlank, hPlain, update_eq_none_iff hBlank hPlain, by rfl⟩

end LockFile

end Lockstep
