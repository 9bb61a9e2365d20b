import Lockstep.Proofs.LockFile.ReadBack

/-!
# Lockstep — canonical texts

The texts of lock files as a grammar, without reading or writing: which lines
there are, in which order, and what stands on each (`Layout`). A text is
canonical if its lines, but for one line feed at its end, are those of a layout
(`IsCanonical`).

* `isCanonical_iff`    — the canonical texts are those that lock files of plain comments
  and plain locks are written into.
* `parse_eq_lockFile`  — what is read from a canonical text is what its layout shows.
-/

namespace Lockstep

-- ---------------------------------------------------------------------------
-- The grammar
-- ---------------------------------------------------------------------------

/-- What the lines of a canonical text show, from the first to the last. -/
structure Layout where
  comments : List Text
  /-- Each coordinate with its names, which a set has in strictly increasing order. -/
  entries : List (Coordinate × NameSet)
  empty : NameSet

namespace Layout

/-- The line of a coordinate: its three fields, and after the sign its names. -/
def entryLine (c : Coordinate) (names : NameSet) : Text :=
  c.text ++ char '=' :: Text.joinWith [char ','] names.toList

/-- The last line, of the names with nothing to lock. -/
def emptyLine (names : NameSet) : Text :=
  "empty=".text ++ Text.joinWith [char ','] names.toList

/-- Comments, then entries, with an empty line between them if there are both, and
the last line. -/
def lines (l : Layout) : List Text :=
  l.comments ++ (if l.comments ≠ [] ∧ l.entries ≠ [] then [[]] else []) ++
    l.entries.map (fun e => entryLine e.1 e.2) ++ [emptyLine l.empty]

/-- A name that a line can list. -/
structure IsListed (n : Text) : Prop where
  ne_nil : n ≠ []
  trimmed : n.trim = n
  no_comma : char ',' ∉ n

/-- The line of an entry is one that is read as such. -/
structure IsEntry (c : Coordinate) (names : NameSet) : Prop where
  some_name : names ≠ ∅
  no_comment : ¬ "# ".text <+: entryLine c names
  one_sign : (entryLine c names).count (char '=') = 1
  two_colons : c.text.count (char ':') = 2
  names : ∀ n ∈ names, IsListed n

/-- What each line of a canonical text has to satisfy. -/
structure IsCanonical (l : Layout) : Prop where
  comments : ∀ c ∈ l.comments, "# ".text <+: c ∧ c.getLast? ≠ some (char '\r')
  entries : ∀ e ∈ l.entries, IsEntry e.1 e.2
  increasing : l.entries.Pairwise fun e e' => e.1.text < e'.1.text
  empty : ∀ n ∈ l.empty, IsListed n
  one_sign : (emptyLine l.empty).count (char '=') = 1

end Layout

/-- The lines of the text are those of a canonical layout, with or without a line
feed after the last. -/
def IsCanonical (text : Text) : Prop :=
  ∃ l : Layout, l.IsCanonical ∧
    (text.splitOn (char '\n') = l.lines ∨ text.splitOn (char '\n') = l.lines ++ [[]])

-- ---------------------------------------------------------------------------
-- Counting the signs of a line
-- ---------------------------------------------------------------------------

namespace Coordinate

/-- The text of a coordinate has two colons, those between its fields, if and only
if the fields have none. -/
theorem count_colon_text {c : Coordinate} :
    c.text.count (char ':') = 2 ↔ ∀ field ∈ c.fields, char ':' ∉ field := by
  obtain ⟨g, a, v⟩ := c
  simp only [text, fields, List.count_append, List.count_cons_self, List.mem_cons,
    List.not_mem_nil, or_false, forall_eq_or_imp, forall_eq, ← List.count_eq_zero]
  omega

end Coordinate

namespace Layout

/-- The line of an entry has one sign if and only if neither the coordinate nor a
name holds another. -/
theorem count_equals_entryLine {c : Coordinate} {names : NameSet} :
    (entryLine c names).count (char '=') = 1 ↔
      char '=' ∉ c.text ∧ char '=' ∉ Text.joinWith [char ','] names.toList := by
  simp only [entryLine, List.count_append, List.count_cons_self, ← List.count_eq_zero]
  omega

/-- The last line has one sign if and only if no name in it holds another. -/
theorem count_equals_emptyLine {names : NameSet} :
    (emptyLine names).count (char '=') = 1 ↔ char '=' ∉ Text.joinWith [char ','] names.toList := by
  have hMark : "empty=".text.count (char '=') = 1 := by decide
  have hCount : (emptyLine names).count (char '=') =
      "empty=".text.count (char '=') + (Text.joinWith [char ','] names.toList).count (char '=') :=
    List.count_append
  rw [← List.count_eq_zero]
  omega

theorem entryLine_eq (c : Coordinate) (names : NameSet) :
    entryLine c names = LockFile.entryText (c, names) := by
  rw [entryLine, LockFile.entryText, LockFile.joinNames_eq]

theorem emptyLine_eq (names : NameSet) :
    emptyLine names = LockFile.emptyLine names.toList := by
  rw [LockFile.emptyLine, LockFile.joinNames_eq]
  rfl

-- ---------------------------------------------------------------------------
-- Plain values and canonical lines
-- ---------------------------------------------------------------------------

/-- A name that a line lists can be read back, if the whole list has neither a sign nor a line feed.
-/
theorem IsListed.isName {names : NameSet} {n : Text} (h : IsListed n) (hn : n ∈ names)
    (hEquals : char '=' ∉ Text.joinWith [char ','] names.toList)
    (hNewline : char '\n' ∉ Text.joinWith [char ','] names.toList) : IsName n where
  ne_nil := h.ne_nil
  trimmed := h.trimmed
  no_equals := fun hx => hEquals (Text.mem_joinWith_of_mem hn hx)
  no_comma := h.no_comma
  no_newline := fun hx => hNewline (Text.mem_joinWith_of_mem hn hx)

theorem isListed_of_isName {n : Text} (h : IsName n) : IsListed n :=
  ⟨h.ne_nil, h.trimmed, h.no_comma⟩

theorem not_mem_joinWith {names : NameSet} {x : Letter} (hx : x ≠ char ',')
    (h : ∀ n ∈ names, x ∉ n) : x ∉ Text.joinWith [char ','] names.toList := by
  rw [← LockFile.joinNames_eq]
  exact LockFile.not_mem_joinNames hx h

/-- The line of a plain entry is canonical. -/
theorem isEntry_of_isPlain {c : Coordinate} {names : NameSet} (hne : names ≠ ∅) (hc : c.IsPlain)
    (hNames : ∀ n ∈ names, IsName n) : IsEntry c names where
  some_name := hne
  no_comment := fun hMark => hc.no_comment (Coordinate.commentMark_prefix_text_iff.1 hMark)
  one_sign := by
    refine count_equals_entryLine.2
      ⟨Coordinate.not_mem_text (by decide) hc.no_equals, ?_⟩
    exact not_mem_joinWith (by decide) fun n hn => (hNames n hn).no_equals
  two_colons := Coordinate.count_colon_text.2 hc.no_colon
  names := fun n hn => isListed_of_isName (hNames n hn)

/-- A canonical line is the line of a plain entry. The line feed is excluded on its
own, since a line of a text has none while the grammar does not speak of it. -/
theorem IsEntry.isPlain {c : Coordinate} {names : NameSet} (h : IsEntry c names)
    (hNewline : char '\n' ∉ entryLine c names) : c.IsPlain ∧ ∀ n ∈ names, IsName n := by
  obtain ⟨hLeft, hRight⟩ := count_equals_entryLine.1 h.one_sign
  rw [entryLine, List.mem_append, List.mem_cons, not_or, not_or] at hNewline
  refine ⟨⟨Coordinate.count_colon_text.1 h.two_colons, ?_, ?_, ?_⟩, fun n hn =>
    (h.names n hn).isName hn hRight hNewline.2.2⟩
  · exact fun field hField hx => hLeft (Coordinate.mem_text_of_mem hField hx)
  · exact fun field hField hx => hNewline.1 (Coordinate.mem_text_of_mem hField hx)
  · exact fun hPrefix => h.no_comment (Coordinate.commentMark_prefix_text_iff.2 hPrefix)

end Layout

-- ---------------------------------------------------------------------------
-- Lock files and their layouts
-- ---------------------------------------------------------------------------

namespace LockFile

/-- What the lines of a lock file's text show. -/
def layout (f : LockFile) : Layout := ⟨f.comments, f.lock.entries, f.lock.empty⟩

/-- The lines that the layout of a lock file shows are the lines that are written for it. -/
theorem lines_layout (f : LockFile) : f.layout.lines = f.writtenLines := by
  have hGap : (if f.comments ≠ [] ∧ f.lock.entries ≠ [] then [[]] else []) = f.gap := by
    rw [gap]
    cases f.comments <;> cases f.lock.entries <;> simp
  have hEntries : f.lock.entries.map (fun e => Layout.entryLine e.1 e.2) =
      f.lock.entries.map entryText :=
    List.map_congr_left fun e _ => Layout.entryLine_eq e.1 e.2
  rw [Layout.lines, layout, hGap, hEntries, Layout.emptyLine_eq]
  rfl

/-- A lock file of comment lines and a plain lock has a canonical layout. That its
entries are in order is owed to the sort, and that none is repeated to the fields
without colons. -/
theorem isCanonical_layout {f : LockFile} (hComments : ∀ c ∈ f.comments, IsCommentLine c)
    (hLock : f.lock.IsPlain) : f.layout.IsCanonical where
  comments := fun c hc => ⟨(hComments c hc).marked, (hComments c hc).no_return⟩
  entries := fun e he => Layout.isEntry_of_isPlain (Lock.mem_entries.1 he).2
    (hLock.of_mem_entries he).1 (hLock.of_mem_entries he).2
  increasing := hLock.strict_entries
  empty := fun n hn => Layout.isListed_of_isName (hLock.empty n hn)
  one_sign := Layout.count_equals_emptyLine.2 <|
    Layout.not_mem_joinWith (by decide) fun n hn => (hLock.empty n hn).no_equals

end LockFile

namespace Layout

variable {l : Layout}

/-- No coordinate has two entries, as their texts are strictly increasing. -/
theorem IsCanonical.nodup (h : l.IsCanonical) : (l.entries.map (·.1)).Nodup := by
  rw [List.nodup_iff_pairwise_ne, List.pairwise_map]
  refine h.increasing.imp ?_
  intro e e' hlt heq
  rw [heq] at hlt
  exact List.lt_irrefl _ hlt

/-- The lock file that a canonical layout shows. -/
def lockFile (l : Layout) (h : l.IsCanonical) : LockFile where
  comments := l.comments
  lock := ⟨⟨l.entries, h.nodup⟩, l.empty⟩

/-- The lock file that a canonical layout shows has this layout: sorting its
entries, and leaving out those without names, changes nothing. -/
theorem layout_lockFile (h : l.IsCanonical) : (l.lockFile h).layout = l := by
  have hKept : ∀ e ∈ l.entries, (!e.2.isEmpty) = true := fun e he => by
    rw [Bool.not_eq_true', NameSet.isEmpty_eq_false_iff, ← NameSet.ne_empty_iff]
    exact (h.entries e he).some_name
  have hEntries : (l.lockFile h).lock.entries = l.entries := by
    show (Text.sortBy (·.1.text) l.entries).filter (fun e => !e.2.isEmpty) = l.entries
    rw [Text.sortBy_eq_self h.increasing]
    exact List.filter_eq_self.2 hKept
  rw [LockFile.layout, hEntries]
  rfl

theorem mem_lines_of_mem_comments {c : Text} (hc : c ∈ l.comments) : c ∈ l.lines := by
  rw [lines, List.append_assoc, List.append_assoc]
  exact List.mem_append_left _ hc

theorem mem_lines_of_mem_entries {e : Coordinate × NameSet} (he : e ∈ l.entries) :
    entryLine e.1 e.2 ∈ l.lines := by
  rw [lines, List.append_assoc]
  exact List.mem_append_right _ (List.mem_append_left _ (List.mem_map_of_mem he))

theorem emptyLine_mem_lines : emptyLine l.empty ∈ l.lines :=
  List.mem_append_right _ List.mem_cons_self

/-- The comments of a canonical layout are comment lines, if no line holds a line feed. -/
theorem isCommentLine_lockFile (h : l.IsCanonical) (hNewline : ∀ line ∈ l.lines, char '\n' ∉ line) :
    ∀ c ∈ (l.lockFile h).comments, IsCommentLine c := by
  intro c hc
  obtain ⟨hMark, hReturn⟩ := h.comments c hc
  exact ⟨hMark, hNewline c (mem_lines_of_mem_comments hc), hReturn⟩

/-- What a canonical layout shows can be written and read back, if no line holds a
line feed. Coordinates and names are plain line by line; of the last line the one
sign says that no name holds another. -/
theorem isPlain_lockFile (h : l.IsCanonical) (hNewline : ∀ line ∈ l.lines, char '\n' ∉ line) :
    (l.lockFile h).lock.IsPlain := by
  have hPlain : ∀ e ∈ l.entries, e.1.IsPlain ∧ ∀ n ∈ e.2, IsName n := fun e he =>
    (h.entries e he).isPlain (hNewline _ (mem_lines_of_mem_entries he))
  constructor
  · intro c hc
    obtain ⟨e, he, rfl⟩ := List.mem_map.1 hc
    exact (hPlain e he).1
  · intro n hn
    -- a name is on the last line or on the line of an entry
    rcases Lock.mem_tracked.1 hn with hn | ⟨c, hn⟩
    · have hLast : char '\n' ∉ Text.joinWith [char ','] l.empty.toList := fun hx =>
        hNewline _ emptyLine_mem_lines (List.mem_append_right _ hx)
      exact (h.empty n hn).isName hn (count_equals_emptyLine.1 h.one_sign) hLast
    · have hc : c ∈ (l.lockFile h).lock.locked.keys := LockTable.mem_keys_of_mem_get hn
      have he : (c, (l.lockFile h).lock.locked.get c) ∈ l.entries :=
        LockTable.mem_entries_iff.2 ⟨hc, rfl⟩
      exact (hPlain _ he).2 n hn

end Layout

-- ---------------------------------------------------------------------------
-- Canonical texts
-- ---------------------------------------------------------------------------

namespace LockFile

theorem emptyLine_mem_writtenLines (f : LockFile) :
    emptyLine f.lock.empty.toList ∈ f.writtenLines := by
  simp [writtenLines]

/-- The written lines end as the last one does, which is not empty. -/
theorem getLast?_joinWith_writtenLines {f : LockFile}
    (hNewline : char '\n' ∉ emptyLine f.lock.empty.toList) :
    (Text.joinWith [char '\n'] f.writtenLines).getLast? ≠ some (char '\n') := by
  have hLast : f.writtenLines.getLast? = some (emptyLine f.lock.empty.toList) := by
    simp [writtenLines]
  rw [Text.getLast?_joinWith hLast (by simp [emptyLine])]
  exact fun hChar => hNewline (List.mem_of_getLast? hChar)

/-- A lock file is written into a text that has its lines already. The line feed
after the last line is kept if there is one, and not added if there is none. -/
theorem written_eq_self {f : LockFile} (hNewline : ∀ line ∈ f.writtenLines, char '\n' ∉ line) {text : Text}
    (h : text.splitOn (char '\n') = f.writtenLines ∨ text.splitOn (char '\n') = f.writtenLines ++ [[]]) :
    f.written text = text := by
  have hBody : (Text.joinWith [char '\n'] f.writtenLines).splitOn (char '\n') = f.writtenLines :=
    Text.splitOn_joinWith (by simp [writtenLines]) hNewline
  -- without a line feed at the end, and with one
  rcases h with h | h
  · have hText : Text.joinWith [char '\n'] f.writtenLines = text :=
      Text.splitOn_injective (hBody.trans h.symm)
    have hEnd : text.getLast? ≠ some (char '\n') :=
      hText ▸ getLast?_joinWith_writtenLines (hNewline _ f.emptyLine_mem_writtenLines)
    rw [written, if_neg hEnd, hText]
  · have hSplit : (Text.joinWith [char '\n'] f.writtenLines ++ [char '\n']).splitOn (char '\n') =
        text.splitOn (char '\n') := by
      rw [Text.splitOn_append_singleton, hBody, h]
    have hText := Text.splitOn_injective hSplit
    rw [written, if_pos (by rw [← hText]; simp), hText]

/-- What a canonical text shows is written into this text. -/
theorem written_lockFile {l : Layout} (hl : l.IsCanonical)
    (hNewline : ∀ line ∈ l.lines, char '\n' ∉ line) {text : Text}
    (h : text.splitOn (char '\n') = l.lines ∨ text.splitOn (char '\n') = l.lines ++ [[]]) :
    (l.lockFile hl).written text = text := by
  have hLines : l.lines = (l.lockFile hl).writtenLines := by
    rw [← lines_layout, Layout.layout_lockFile hl]
  rw [hLines] at h hNewline
  exact written_eq_self hNewline h

/-- The lines of a text hold no line feed. -/
theorem newline_not_mem_lines {l : Layout} {text : Text}
    (h : text.splitOn (char '\n') = l.lines ∨ text.splitOn (char '\n') = l.lines ++ [[]]) :
    ∀ line ∈ l.lines, char '\n' ∉ line := by
  intro line hLine
  apply Text.not_mem_of_mem_splitOn (t := text)
  rcases h with h | h
  · rw [h]
    exact hLine
  · rw [h]
    exact List.mem_append_left _ hLine

/-- Reading finds all that the layout of a canonical text shows. Such a text is
written for the lock file of its layout, and what was written is read back
(`parse_written_eq`). -/
theorem parse_eq_lockFile {l : Layout} (hl : l.IsCanonical) {text : Text}
    (h : text.splitOn (char '\n') = l.lines ∨ text.splitOn (char '\n') = l.lines ++ [[]]) :
    parse text = l.lockFile hl := by
  have hNewline := newline_not_mem_lines h
  have hComments := Layout.isCommentLine_lockFile hl hNewline
  have hLock := Layout.isPlain_lockFile hl hNewline
  -- the entries of a layout are in order already, and none is without names
  have hTidy : (l.lockFile hl).lock.tidy = (l.lockFile hl).lock := by
    have hLocked : (l.lockFile hl).lock.tidy.locked = (l.lockFile hl).lock.locked :=
      LockTable.eq_of_entries_eq (congrArg Layout.entries (Layout.layout_lockFile hl))
    calc (l.lockFile hl).lock.tidy
        = ⟨(l.lockFile hl).lock.tidy.locked, (l.lockFile hl).lock.empty⟩ := rfl
      _ = (l.lockFile hl).lock := by rw [hLocked]
  have hRead := parse_written_eq hComments hLock text
  rw [written_lockFile hl hNewline h, hTidy] at hRead
  exact hRead

/-- The canonical texts are those that lock files of plain comments and plain locks
are written into. The grammar is thereby neither wider nor narrower than what
reading and writing keep. -/
theorem isCanonical_iff {text : Text} :
    IsCanonical text ↔
      ∃ f : LockFile, (∀ c ∈ f.comments, IsCommentLine c) ∧ f.lock.IsPlain ∧
        f.written text = text := by
  constructor
  · rintro ⟨l, hl, hLines⟩
    have hNewline := newline_not_mem_lines hLines
    exact ⟨l.lockFile hl, Layout.isCommentLine_lockFile hl hNewline,
      Layout.isPlain_lockFile hl hNewline, written_lockFile hl hNewline hLines⟩
  · rintro ⟨f, hComments, hLock, hText⟩
    -- the lines of the text are the written ones, and these are the lines of a layout
    have hSplit := splitOn_written (f := f) (fun line hLine => newline_not_mem_writtenLines
      (fun c hc => (hComments c hc).no_newline) hLock hLine) text
    rw [hText] at hSplit
    refine ⟨f.layout, isCanonical_layout hComments hLock, ?_⟩
    rw [lines_layout, hSplit]
    split
    · exact Or.inr rfl
    · exact Or.inl (List.append_nil _)

end LockFile

end Lockstep
