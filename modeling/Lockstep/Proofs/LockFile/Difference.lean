import Lockstep.Proofs.LockFile.Idempotent
import Lockstep.Proofs.LockFile.Kinds

/-!
# Lockstep — what an update changes in a text

A canonical text is written line by line, and an update writes it anew. Its lines
nevertheless stay as they are, but for the entries of the coordinates whose sets
are other ones now.

* `SameOrder` — what two lists have in common stands in the same order in both;
  for lists in strictly increasing order this is always so (`SameOrder.of_strict`).
* `mem_writtenLines_iff_of_isEntryOf` — the line of an entry stays iff its set does.
* `isCanonical_iff_render` — the canonical texts are those that writing gives back.
* `revise_isMinimalDiff` — the lines before and after an update of a canonical text.
-/

namespace Lockstep

-- ---------------------------------------------------------------------------
-- The order of common values
-- ---------------------------------------------------------------------------

section SameOrder

variable {α β : Type} [DecidableEq α] [DecidableEq β] {xs ys xs' ys' : List α}

/-- The values that two lists have in common stand in the same order, and as often, in both. -/
def SameOrder (xs ys : List α) : Prop := xs.filter (· ∈ ys) = ys.filter (· ∈ xs)

theorem SameOrder.refl (xs : List α) : SameOrder xs xs := rfl

theorem SameOrder.singleton (x y : α) : SameOrder [x] [y] := by
  by_cases h : x = y
  · rw [h]
    exact SameOrder.refl [y]
  · simp [SameOrder, h, Ne.symm h]

/-- What lists of another kind add does not count among the common values. -/
private theorem filter_mem_append {p : α → Prop} (hxs : ∀ x ∈ xs, p x) (hys' : ∀ y ∈ ys', ¬ p y) :
    xs.filter (· ∈ ys ++ ys') = xs.filter (· ∈ ys) := by
  apply List.filter_congr
  intro x hx
  have hno : x ∉ ys' := fun hMem => hys' x hMem (hxs x hx)
  simp [hno]

private theorem filter_mem_append_right {p : α → Prop} (hxs' : ∀ x ∈ xs', ¬ p x)
    (hys : ∀ y ∈ ys, p y) : xs'.filter (· ∈ ys ++ ys') = xs'.filter (· ∈ ys') := by
  apply List.filter_congr
  intro x hx
  have hno : x ∉ ys := fun hMem => hxs' x hx (hys x hMem)
  simp [hno]

/-- Lists go on in the same order if what they go on with is of another kind. A text
is put together in this way: its comments, the empty line, the entries and the last
line are each of their kind. -/
theorem SameOrder.append {p : α → Prop} (h : SameOrder xs ys) (h' : SameOrder xs' ys')
    (hxs : ∀ x ∈ xs, p x) (hys : ∀ y ∈ ys, p y) (hxs' : ∀ x ∈ xs', ¬ p x)
    (hys' : ∀ y ∈ ys', ¬ p y) : SameOrder (xs ++ xs') (ys ++ ys') := by
  rw [SameOrder, List.filter_append, List.filter_append, filter_mem_append hxs hys',
    filter_mem_append_right hxs' hys, filter_mem_append hys hxs', filter_mem_append_right hys' hxs,
    h, h']

/-- What images have in common are the images of what is common, if the function tells values apart.
-/
private theorem filter_mem_map {f : α → β} (hf : ∀ x ∈ xs, ∀ y ∈ ys, f x = f y → x = y) :
    (xs.map f).filter (· ∈ ys.map f) = (xs.filter (· ∈ ys)).map f := by
  rw [List.filter_map]
  congr 1
  apply List.filter_congr
  intro x hx
  refine decide_eq_decide.2 ⟨fun hMem => ?_, List.mem_map_of_mem⟩
  obtain ⟨y, hy, heq⟩ := List.mem_map.1 hMem
  rw [hf x hx y hy heq.symm]
  exact hy

/-- Images stand in the same order as the values that they tell apart. -/
theorem SameOrder.map {f : α → β} (hf : ∀ x ∈ xs, ∀ y ∈ ys, f x = f y → x = y)
    (h : SameOrder xs ys) : SameOrder (xs.map f) (ys.map f) := by
  have hf' : ∀ y ∈ ys, ∀ x ∈ xs, f y = f x → y = x := fun y hy x hx heq =>
    (hf x hx y hy heq.symm).symm
  rw [SameOrder, filter_mem_map hf, filter_mem_map hf', h]

/-- Lists in strictly increasing order never move what they have in common. -/
theorem SameOrder.of_strict {key : α → Text} (hxs : xs.Pairwise fun a b => key a < key b)
    (hys : ys.Pairwise fun a b => key a < key b) : SameOrder xs ys := by
  refine Text.eq_of_strict (hxs.filter _) (hys.filter _) fun a => ?_
  simp only [List.mem_filter, decide_eq_true_eq]
  exact and_comm

end SameOrder

-- ---------------------------------------------------------------------------
-- The lines of a text
-- ---------------------------------------------------------------------------

/-- The lines of a text as they stand; after a line feed at its end there is none. -/
def Text.lines (t : Text) : List Text :=
  if t.getLast? = some (char '\n') then (t.splitOn (char '\n')).dropLast else t.splitOn (char '\n')

namespace LockFile

variable {f g : LockFile}

/-- The lines of a text that was written are the lines that were written, whether
the text before had a line feed at its end or not. -/
theorem lines_written (hNewline : ∀ line ∈ f.writtenLines, char '\n' ∉ line) (replaced : Text) :
    (f.written replaced).lines = f.writtenLines := by
  have hEnd : (f.written replaced).getLast? = some (char '\n') ↔ replaced.getLast? = some (char '\n') :=
    getLast?_written_iff (hNewline _ f.emptyLine_mem_writtenLines)
  rw [Text.lines, splitOn_written hNewline]
  by_cases h : replaced.getLast? = some (char '\n')
  · rw [if_pos (hEnd.2 h), if_pos h, List.dropLast_concat]
  · rw [if_neg (mt hEnd.1 h), if_neg h, List.append_nil]

-- ---------------------------------------------------------------------------
-- The lines of a lock file
-- ---------------------------------------------------------------------------

/-- What is written after the comments. -/
def body (f : LockFile) : List Text :=
  f.gap ++ (f.lock.entries.map entryText ++ [emptyLine f.lock.empty.toList])

theorem writtenLines_eq (f : LockFile) : f.writtenLines = f.comments ++ f.body := by
  rw [writtenLines, body, List.append_assoc, List.append_assoc]

theorem isEntryOf_entryText (hLock : f.lock.IsPlain) {e : Coordinate × NameSet}
    (he : e ∈ f.lock.entries) : Line.IsEntryOf e.1 (entryText e) := by
  obtain ⟨hc, hNames⟩ := hLock.of_mem_entries he
  exact (Line.read_eq_entry_iff.1 (Line.read_entryLine hc hNames)).1

theorem matches_emptyLine (hLock : f.lock.IsPlain) :
    Line.Kind.empty.Matches (emptyLine f.lock.empty.toList) :=
  (Line.read_eq_empty_iff.1 (Line.read_emptyLine hLock.empty)).1

theorem matches_of_mem_entryLines (hLock : f.lock.IsPlain) {line : Text}
    (h : line ∈ f.lock.entries.map entryText) : Line.Kind.entry.Matches line := by
  obtain ⟨e, he, rfl⟩ := List.mem_map.1 h
  exact (isEntryOf_entryText hLock he).1

/-- The last line of a plain lock is no entry: no line is of two kinds. -/
theorem not_entry_emptyLine (hLock : f.lock.IsPlain) :
    ¬ Line.Kind.entry.Matches (emptyLine f.lock.empty.toList) := by
  intro hEntry
  have hKind := (Line.existsUnique_matches _).unique hEntry (matches_emptyLine hLock)
  exact absurd hKind (by decide)

/-- The kinds of lines that are written after the comments: an empty one, entries,
and the last line. -/
theorem matches_of_mem_body (hLock : f.lock.IsPlain) {line : Text} (h : line ∈ f.body) :
    line = [] ∨ Line.Kind.entry.Matches line ∨ Line.Kind.empty.Matches line := by
  rw [body, List.mem_append, List.mem_append, List.mem_singleton] at h
  rcases h with h | h | rfl
  · exact Or.inl (eq_nil_of_mem_gap h)
  · exact Or.inr (Or.inl (matches_of_mem_entryLines hLock h))
  · exact Or.inr (Or.inr (matches_emptyLine hLock))

/-- No line that is written after the comments of a plain lock file is read as a comment. -/
theorem not_comment_of_mem_body (hLock : f.lock.IsPlain) {line : Text} (h : line ∈ f.body) :
    ¬ Line.Kind.comment.Matches line := by
  intro hMark
  rcases matches_of_mem_body hLock h with rfl | hEntry | hEmpty
  · exact absurd hMark (by decide)
  · exact hEntry.1 hMark
  · exact Line.not_comment_of_left_eq hEmpty.2 hMark

/-- The lines that start as comments do are the comments, and no other of a plain lock file. -/
theorem filter_comment_writtenLines (hMarked : ∀ c ∈ f.comments, Line.commentMark <+: c)
    (hLock : f.lock.IsPlain) : f.writtenLines.filter (Line.Kind.comment.Matches ·) = f.comments := by
  have hKept : f.comments.filter (Line.Kind.comment.Matches ·) = f.comments :=
    List.filter_eq_self.2 fun c hc => decide_eq_true (hMarked c hc)
  have hNone : f.body.filter (Line.Kind.comment.Matches ·) = [] :=
    List.filter_eq_nil_iff.2 fun line hLine hMark =>
      not_comment_of_mem_body hLock hLine (of_decide_eq_true hMark)
  rw [writtenLines_eq, List.filter_append, hKept, hNone, List.append_nil]

/-- Entries are written on lines that tell them apart. Of two plain locks, this says
that a line of both stands for one coordinate with one set. -/
theorem entryText_injOn (hf : f.lock.IsPlain) (hg : g.lock.IsPlain) :
    ∀ e ∈ f.lock.entries, ∀ e' ∈ g.lock.entries, entryText e = entryText e' → e = e' := by
  intro e he e' he' heq
  obtain ⟨hc, hNames⟩ := hf.of_mem_entries he
  obtain ⟨hc', hNames'⟩ := hg.of_mem_entries he'
  have hRead : Line.entry e.1 e.2 = Line.entry e'.1 e'.2 := by
    rw [← Line.read_entryLine hc hNames, ← Line.read_entryLine hc' hNames']
    exact congrArg Line.read heq
  obtain ⟨hFst, hSnd⟩ := Line.entry.inj hRead
  exact Prod.ext hFst hSnd

/-- The one line that a plain lock file has for a coordinate with names. A
coordinate without names has no line. -/
theorem mem_writtenLines_and_isEntryOf_iff (hMarked : ∀ c ∈ f.comments, Line.commentMark <+: c)
    (hLock : f.lock.IsPlain) {line : Text} {c : Coordinate} :
    line ∈ f.writtenLines ∧ Line.IsEntryOf c line ↔
      f.lock.locked.get c ≠ ∅ ∧ line = entryText (c, f.lock.locked.get c) := by
  constructor
  · rintro ⟨hLine, hEntry⟩
    rw [writtenLines_eq, body, List.mem_append, List.mem_append, List.mem_append,
      List.mem_singleton] at hLine
    -- of the four parts of the text, only the entries have lines of this kind
    rcases hLine with hComment | hGap | hLine | rfl
    · exact absurd (hMarked line hComment) hEntry.1.1
    · rw [eq_nil_of_mem_gap hGap] at hEntry
      exact absurd hEntry.1 (by decide)
    · obtain ⟨⟨d, s⟩, he, rfl⟩ := List.mem_map.1 hLine
      have hRead := Line.read_entry (isEntryOf_entryText hLock he)
      obtain ⟨rfl, -⟩ := Line.entry.inj ((Line.read_entry hEntry).symm.trans hRead)
      obtain ⟨rfl, hs⟩ := Lock.mem_entries.1 he
      exact ⟨hs, rfl⟩
    · exact absurd hEntry.1 (not_entry_emptyLine hLock)
  · rintro ⟨hs, rfl⟩
    have he : (c, f.lock.locked.get c) ∈ f.lock.entries := Lock.mem_entries.2 ⟨rfl, hs⟩
    refine ⟨?_, isEntryOf_entryText hLock he⟩
    rw [writtenLines_eq, body]
    exact List.mem_append_right _ (List.mem_append_right _
      (List.mem_append_left _ (List.mem_map_of_mem he)))

-- ---------------------------------------------------------------------------
-- Two lock files with the same comments
-- ---------------------------------------------------------------------------

/-- An entry stays as it is iff its coordinate keeps its set. The line is one of the
first file; in the second it can only stand for the same coordinate, and then with
the same set. -/
theorem mem_writtenLines_iff_of_isEntryOf (hComments : f.comments = g.comments)
    (hMarked : ∀ c ∈ f.comments, Line.commentMark <+: c) (hf : f.lock.IsPlain) (hg : g.lock.IsPlain)
    {line : Text} {c : Coordinate} (hLine : line ∈ f.writtenLines)
    (hEntry : Line.IsEntryOf c line) :
    line ∈ g.writtenLines ↔ g.lock.locked.get c = f.lock.locked.get c := by
  obtain ⟨hs, hText⟩ := (mem_writtenLines_and_isEntryOf_iff hMarked hf).1 ⟨hLine, hEntry⟩
  constructor
  · -- the line stands in both files for the coordinate with the set that each of them has
    intro hMem
    obtain ⟨hs', hText'⟩ :=
      (mem_writtenLines_and_isEntryOf_iff (hComments ▸ hMarked) hg).1 ⟨hMem, hEntry⟩
    have he := entryText_injOn hg hf _ (Lock.mem_entries.2 ⟨rfl, hs'⟩) _
      (Lock.mem_entries.2 ⟨rfl, hs⟩) (hText'.symm.trans hText)
    exact congrArg Prod.snd he
  · intro heq
    rw [← heq] at hs hText
    exact ((mem_writtenLines_and_isEntryOf_iff (hComments ▸ hMarked) hg).2 ⟨hs, hText⟩).1

theorem sameOrder_gap (f g : LockFile) : SameOrder f.gap g.gap := by
  unfold gap
  split <;> split <;> rfl

/-- The lines of entries and of the empty names have an equals sign, so that none of them is empty.
-/
theorem ne_nil_of_mem_signed {line : Text}
    (h : line ∈ f.lock.entries.map entryText ++ [emptyLine f.lock.empty.toList]) : line ≠ [] := by
  rw [List.mem_append, List.mem_map, List.mem_singleton] at h
  rcases h with ⟨e, -, rfl⟩ | rfl
  · simp [entryText]
  · simp [emptyLine]

/-- The empty line comes and goes with the entries, but it always stands before them. The entries
are sorted in both files, and the last line, which may change, is no entry. -/
theorem sameOrder_body (hf : f.lock.IsPlain) (hg : g.lock.IsPlain) :
    SameOrder f.body g.body := by
  have hEntries : SameOrder (f.lock.entries.map entryText) (g.lock.entries.map entryText) :=
    (SameOrder.of_strict hf.strict_entries hg.strict_entries).map (entryText_injOn hf hg)
  have hSigned : SameOrder (f.lock.entries.map entryText ++ [emptyLine f.lock.empty.toList])
      (g.lock.entries.map entryText ++ [emptyLine g.lock.empty.toList]) :=
    hEntries.append (p := Line.Kind.entry.Matches) (SameOrder.singleton _ _)
      (fun _ => matches_of_mem_entryLines hf) (fun _ => matches_of_mem_entryLines hg)
      (by simpa using not_entry_emptyLine hf) (by simpa using not_entry_emptyLine hg)
  exact (sameOrder_gap f g).append (p := (· = [])) hSigned (fun _ => eq_nil_of_mem_gap)
    (fun _ => eq_nil_of_mem_gap) (fun _ => ne_nil_of_mem_signed) (fun _ => ne_nil_of_mem_signed)

/-- The lines that two files of the same comments share are in the same order in both. -/
theorem sameOrder_writtenLines (hComments : f.comments = g.comments)
    (hMarked : ∀ c ∈ f.comments, Line.commentMark <+: c) (hf : f.lock.IsPlain)
    (hg : g.lock.IsPlain) : SameOrder f.writtenLines g.writtenLines := by
  rw [writtenLines_eq, writtenLines_eq, ← hComments]
  exact (SameOrder.refl f.comments).append (p := Line.Kind.comment.Matches) (sameOrder_body hf hg)
    hMarked hMarked (fun _ => not_comment_of_mem_body hf) (fun _ => not_comment_of_mem_body hg)

-- ---------------------------------------------------------------------------
-- An update of a canonical text
-- ---------------------------------------------------------------------------

variable {text : Text} {p : Project} {siblings : List Sibling}

theorem ne_nil_of_mem_entries_parse (text : Text) :
    ∀ e ∈ (parse text).lock.entries, ∀ n ∈ e.2, n ≠ [] :=
  fun _ he n hn => (((isPlain_parse text).of_mem_entries he).2 n hn).ne_nil

/-- A text that is rendered as itself is the text that is written for what is read from it. -/
theorem written_parse_of_render (h : (parse text).render text = .ok text) :
    (parse text).written text = text := by
  rw [render_eq (ne_nil_of_mem_entries_parse text)] at h
  exact Except.ok.inj h

/-- The canonical texts are those that are written again for what is read from them. -/
theorem isCanonical_iff_render : IsCanonical text ↔ (parse text).render text = .ok text := by
  constructor
  · rintro ⟨l, hl, hLines⟩
    have hNames := ne_nil_of_mem_entries_parse text
    rw [parse_eq_lockFile hl hLines] at hNames ⊢
    rw [render_eq hNames, written_lockFile hl (newline_not_mem_lines hLines) hLines]
  · intro h
    exact isCanonical_of_written_eq_self (isPlain_parse text) (written_parse_of_render h) rfl

/-- The lines of a canonical text are those that are written for what is read from it. -/
theorem lines_eq_writtenLines (h : (parse text).render text = .ok text) :
    text.lines = (parse text).writtenLines := by
  have hNewline : ∀ line ∈ (parse text).writtenLines, char '\n' ∉ line := fun _ =>
    newline_not_mem_writtenLines (fun _ hc => (marked_of_mem_comments_parse hc).2)
      (isPlain_parse text)
  rw [← lines_written hNewline text, written_parse_of_render h]

/-- How the lines of a text differ from those of the text that an update makes of it. -/
structure IsMinimalDiff (text new : Text) (p : Project) (siblings : List Sibling) : Prop where
  /-- An entry stays iff its coordinate keeps its set. -/
  kept : ∀ line ∈ text.lines, ∀ c, Line.IsEntryOf c line →
    (line ∈ new.lines ↔
      ((parse text).lock.reconcile p siblings).locked.get c = (parse text).lock.locked.get c)
  /-- An entry is written only for a coordinate that is new or has another set. -/
  added : ∀ line ∈ new.lines, line ∉ text.lines → ∀ c, Line.IsEntryOf c line →
    c ∉ (parse text).lock.locked.keys ∨
      ((parse text).lock.reconcile p siblings).locked.get c ≠ (parse text).lock.locked.get c
  /-- All comments stay, and stand first. -/
  comments : ∃ rest, new.lines = text.lines.filter (Line.Kind.comment.Matches ·) ++ rest ∧
    ∀ line ∈ rest, ¬ Line.Kind.comment.Matches line
  /-- The lines that stay are not moved. -/
  order : SameOrder text.lines new.lines

/--
**Minimal differences.** An update of a canonical text has an answer. Of the entries of
the text, those stay whose coordinates keep their sets; what is written anew is about
coordinates that are new or have another set. All comments stay and stand first, and no
line that stays is moved against another.
-/
theorem revise_isMinimalDiff (hCanonical : (parse text).render text = .ok text) (hp : p.IsPlain)
    (siblings : List Sibling) :
    ∃ r, revise text p siblings = .ok r ∧ IsMinimalDiff text r.text p siblings := by
  have hBlank : text.isAllBlank = false := by
    rw [← written_parse_of_render hCanonical]
    exact isAllBlank_written _ _
  obtain ⟨r, hr, hText⟩ := exists_revise_eq_ok hBlank p siblings
  have hOld : text.lines = (parse text).writtenLines := lines_eq_writtenLines hCanonical
  have hNew : r.text.lines = ((parse text).reconcile p siblings).writtenLines := by
    rw [hText]
    exact lines_written (newline_not_mem_writtenLines_reconcile hp) text
  -- the comments are the same before and after, and both locks are plain
  have hMarked : ∀ c ∈ (parse text).comments, Line.commentMark <+: c := fun _ hc =>
    (marked_of_mem_comments_parse hc).1
  have hSame : (parse text).comments = ((parse text).reconcile p siblings).comments := rfl
  have hPlain := isPlain_parse text
  have hPlain' : ((parse text).reconcile p siblings).lock.IsPlain := isPlain_reconcile_parse text hp
  refine ⟨r, hr, ?_, ?_, ?_, ?_⟩
  · intro line hLine c hEntry
    rw [hNew]
    rw [hOld] at hLine
    exact mem_writtenLines_iff_of_isEntryOf hSame hMarked hPlain hPlain' hLine hEntry
  · intro line hLine hno c hEntry
    rw [hNew] at hLine
    rw [hOld] at hno
    refine Or.inr fun heq => hno ?_
    have hKept := mem_writtenLines_iff_of_isEntryOf hSame.symm hMarked hPlain' hPlain hLine hEntry
    exact hKept.2 heq.symm
  · refine ⟨((parse text).reconcile p siblings).body, ?_, fun _ => not_comment_of_mem_body hPlain'⟩
    rw [hNew, hOld, filter_comment_writtenLines hMarked hPlain]
    exact writtenLines_eq _
  · rw [hOld, hNew]
    exact sameOrder_writtenLines hSame hMarked hPlain hPlain'

private def shared : Text := "# kept\n\norg:a:1=main\norg:b:1=main,test\nempty=\n".text

private def moving : Project where
  name := "app".text
  configurations := [⟨"main".text, true, [⟨"org".text, "a".text, "1".text⟩,
    ⟨"org".text, "b".text, "2".text⟩]⟩]

theorem revise_isMinimalDiff_shared :
    (parse shared).render shared = .ok shared ∧ moving.IsPlain ∧
      (∃ r, revise shared moving [] = .ok r ∧ IsMinimalDiff shared r.text moving []) ∧
      revise shared moving [] = .ok
        ⟨"# kept\n\norg:a:1=main\norg:b:1=test\norg:b:2=main\nempty=\n".text, true⟩ :=
  have hCanonical : (parse shared).render shared = .ok shared := by decide +kernel
  have hPlain : moving.IsPlain := by decide
  ⟨hCanonical, hPlain, revise_isMinimalDiff hCanonical hPlain [], by decide +kernel⟩

end LockFile

end Lockstep
