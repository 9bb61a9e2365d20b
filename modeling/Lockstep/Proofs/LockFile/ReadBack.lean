import Lockstep.Proofs.LockFile.Reading

/-!
# Lockstep — reading back what is written

A lock is written as its entries in order, so that reading gives its **tidy**
form: the same sets, the coordinates with a set in the order of their texts, and
no others (`Lock.tidy`).

* `render_eq_match` — a lock file has a text, line by line, unless an entry has only the
  empty name; `render_eq` is the case of a lock whose names are not empty.
* `parse_written`  — what is read from that text; of a comment, a carriage return at
  its end is lost.
* `parse_render`   — reading undoes writing.
-/

namespace Lockstep

-- ---------------------------------------------------------------------------
-- Tidy locks
-- ---------------------------------------------------------------------------

namespace Lock

/-- The entries that are written are the coordinates with names, each with all of them. -/
theorem mem_entries {l : Lock} {c : Coordinate} {s : NameSet} :
    (c, s) ∈ l.entries ↔ l.locked.get c = s ∧ s ≠ ∅ := by
  rw [entries, List.mem_filter, (Text.perm_sortBy _ _).mem_iff, LockTable.mem_entries_iff,
    Bool.not_eq_true', NameSet.isEmpty_eq_false_iff, NameSet.ne_empty_iff]
  constructor
  · rintro ⟨⟨-, hs⟩, hn⟩
    exact ⟨hs, hn⟩
  · rintro ⟨rfl, n, hn⟩
    exact ⟨⟨LockTable.mem_keys_of_mem_get hn, rfl⟩, n, hn⟩

theorem nodup_entries (l : Lock) : (l.entries.map (·.1)).Nodup := by
  have hSort : ((Text.sortBy (·.1.text) l.locked.entries).map (·.1)).Nodup :=
    ((Text.perm_sortBy _ _).map _).symm.nodup l.locked.nodup
  exact hSort.sublist (List.filter_sublist.map _)

/-- The place of the first entry whose only name is the empty one. -/
def firstNameless? (l : Lock) : Option Nat :=
  l.entries.findIdx? fun e => e.2 = NameSet.singleton []

/-- The lock with its coordinates in the order of their texts, and none without a name. -/
def tidy (l : Lock) : Lock where
  locked := ⟨l.entries, l.nodup_entries⟩
  empty := l.empty

/-- Tidying a lock keeps the set of every coordinate. What is left out are
coordinates without names, whose set is empty either way. -/
@[simp] theorem get_tidy (l : Lock) (c : Coordinate) : l.tidy.locked.get c = l.locked.get c := by
  by_cases h : l.locked.get c = ∅
  · rw [h]
    by_cases hs : l.tidy.locked.get c = ∅
    · exact hs
    · obtain ⟨n, hn⟩ := NameSet.ne_empty_iff.1 hs
      have hMem : (c, l.tidy.locked.get c) ∈ l.entries :=
        LockTable.mem_entries_iff.2 ⟨LockTable.mem_keys_of_mem_get hn, rfl⟩
      rw [← (mem_entries.1 hMem).1, h]
  · have hMem : (c, l.locked.get c) ∈ l.tidy.locked.entries := mem_entries.2 ⟨rfl, h⟩
    exact (LockTable.mem_entries_iff.1 hMem).2

/-- The coordinates of a tidy lock are those that have names. -/
theorem mem_keys_tidy {l : Lock} {c : Coordinate} :
    c ∈ l.tidy.locked.keys ↔ l.locked.get c ≠ ∅ := by
  rw [LockTable.keys, List.mem_map]
  constructor
  · rintro ⟨⟨c, s⟩, hMem, rfl⟩
    obtain ⟨rfl, hs⟩ := mem_entries.1 hMem
    exact hs
  · exact fun h => ⟨(c, l.locked.get c), mem_entries.2 ⟨rfl, h⟩, rfl⟩

theorem mem_keys_of_mem_entries {l : Lock} {e : Coordinate × NameSet} (h : e ∈ l.entries) :
    e.1 ∈ l.locked.keys := by
  obtain ⟨hs, hne⟩ := mem_entries.1 h
  obtain ⟨n, hn⟩ := NameSet.ne_empty_iff.1 hne
  exact LockTable.mem_keys_of_mem_get (hs ▸ hn)

theorem mem_tracked_of_mem_entries {l : Lock} {e : Coordinate × NameSet} {n : Text}
    (h : e ∈ l.entries) (hn : n ∈ e.2) : n ∈ l.tracked :=
  mem_tracked.2 (Or.inr ⟨e.1, (mem_entries.1 h).1 ▸ hn⟩)

theorem IsPlain.of_mem_entries {l : Lock} (h : l.IsPlain) {e : Coordinate × NameSet}
    (he : e ∈ l.entries) : e.1.IsPlain ∧ ∀ n ∈ e.2, IsName n :=
  ⟨h.coordinates e.1 (mem_keys_of_mem_entries he), fun n hn =>
    h.names n (mem_tracked_of_mem_entries he hn)⟩

theorem IsPlain.isSeparated {l : Lock} (h : l.IsPlain) : l.IsSeparated where
  coordinates := fun c hc => (Coordinate.isPlain_iff.1 (h.coordinates c hc)).1
  names := h.names

theorem IsSeparated.of_mem_entries {l : Lock} (h : l.IsSeparated) {e : Coordinate × NameSet}
    (he : e ∈ l.entries) : e.1.IsSeparated ∧ ∀ n ∈ e.2, IsName n :=
  ⟨h.coordinates e.1 (mem_keys_of_mem_entries he), fun n hn =>
    h.names n (mem_tracked_of_mem_entries he hn)⟩

theorem IsSeparated.empty {l : Lock} (h : l.IsSeparated) : ∀ n ∈ l.empty, IsName n := fun n hn =>
  h.names n (mem_tracked.2 (Or.inl hn))

theorem IsPlain.empty {l : Lock} (h : l.IsPlain) : ∀ n ∈ l.empty, IsName n :=
  h.isSeparated.empty

/-- Entries whose coordinates have no colons in their fields stand in strictly
increasing order. -/
theorem strict_entries {l : Lock} (h : ∀ c ∈ l.locked.keys, ∀ field ∈ c.fields, char ':' ∉ field) :
    l.entries.Pairwise fun e e' => e.1.text < e'.1.text := by
  refine (Text.strict_sortBy ?_ ?_).filter _
  · exact List.Pairwise.of_map (·.1) (fun _ _ hne heq => hne (congrArg _ heq)) l.locked.nodup
  · rintro ⟨c, s⟩ he ⟨d, s'⟩ he' hText
    obtain ⟨hc, rfl⟩ := LockTable.mem_entries_iff.1 he
    obtain ⟨hd, rfl⟩ := LockTable.mem_entries_iff.1 he'
    have heq : c = d := Coordinate.text_injective (h c hc) (h d hd) hText
    rw [heq]

theorem IsPlain.no_colon {l : Lock} (h : l.IsPlain) :
    ∀ c ∈ l.locked.keys, ∀ field ∈ c.fields, char ':' ∉ field :=
  fun c hc => (h.coordinates c hc).no_colon

theorem IsPlain.strict_entries {l : Lock} (h : l.IsPlain) :
    l.entries.Pairwise fun e e' => e.1.text < e'.1.text :=
  Lock.strict_entries h.no_colon

/-- The entries of a tidy lock are in order already. -/
theorem IsPlain.entries_tidy {l : Lock} (h : l.IsPlain) : l.tidy.entries = l.entries := by
  have hSorted : Text.sortBy (·.1.text) l.entries = l.entries := Text.sortBy_eq_self h.strict_entries
  show (Text.sortBy (·.1.text) l.entries).filter (fun e => !e.2.isEmpty) = l.entries
  rw [hSorted]
  refine List.filter_eq_self.2 fun e he => ?_
  exact (List.mem_filter.1 he).2

end Lock

-- ---------------------------------------------------------------------------
-- The text of a lock file
-- ---------------------------------------------------------------------------

namespace LockFile

/-- The line of an entry with names. -/
def entryText (e : Coordinate × NameSet) : Text := e.1.text ++ char '=' :: joinNames e.2.toList

/-- The empty line between comments and entries, if there are both. -/
def gap (f : LockFile) : List Text :=
  if f.comments.isEmpty || f.lock.entries.isEmpty then [] else [[]]

/-- The lines of a lock file all of whose entries have one. -/
def writtenLines (f : LockFile) : List Text :=
  f.comments ++ f.gap ++ f.lock.entries.map entryText ++ [emptyLine f.lock.empty.toList]

/-- The text of these lines, in place of a text whose last line feed it keeps. -/
def written (f : LockFile) (replaced : Text) : Text :=
  let body := Text.joinWith [char '\n'] f.writtenLines
  if replaced.getLast? = some (char '\n') then body ++ [char '\n'] else body

/-- An entry has a line unless its only name is the empty one. What is joined from
that name is the empty text, which is taken for a list without names. -/
theorem entryLine?_eq_ite (c : Coordinate) {s : NameSet} (hs : s ≠ ∅) :
    entryLine? c s.toList = if s = NameSet.singleton [] then none else some (entryText (c, s)) := by
  by_cases hNameless : s = NameSet.singleton []
  · rw [if_pos hNameless, hNameless]
    rfl
  · have hJoined : joinNames s.toList ≠ [] := fun hNil =>
      hNameless ((joinNames_eq_nil_iff hs).1 hNil)
    rw [if_neg hNameless, entryLine?, if_neg (by simpa using hJoined)]
    rfl

/-- An entry whose names are not empty has a line. -/
theorem entryLine?_eq (c : Coordinate) {s : NameSet} (h : ∀ n ∈ s, n ≠ []) (hs : s ≠ ∅) :
    entryLine? c s.toList = some (entryText (c, s)) := by
  rw [entryLine?_eq_ite c hs, if_neg]
  rintro rfl
  exact h [] (NameSet.mem_singleton.2 rfl) rfl

/-- The comments and the gap come first, and an entry without a line leaves its place empty. -/
theorem lines_eq_append (f : LockFile) :
    f.lines = (f.comments ++ f.gap).map some ++
      f.lock.entries.map (fun e => if e.2 = NameSet.singleton [] then none else some (entryText e)) ++
      [some (emptyLine f.lock.empty.toList)] := by
  have hEntries : f.lock.entries.map (fun e => entryLine? e.1 e.2.toList) =
      f.lock.entries.map fun e =>
        if e.2 = NameSet.singleton [] then none else some (entryText e) := by
    apply List.map_congr_left
    intro e he
    exact entryLine?_eq_ite e.1 (Lock.mem_entries.1 he).2
  rw [lines, hEntries]
  simp only [gap, List.map_append, List.isEmpty_map]
  split <;> rfl

/-- The place of the missing line is that of the first entry whose only name is the
empty one. It is counted among all lines, comments and gap included. -/
theorem findIdx?_lines (f : LockFile) :
    f.lines.findIdx? Option.isNone =
      f.lock.firstNameless?.map (· + (f.comments ++ f.gap).length) := by
  have hBefore : ((f.comments ++ f.gap).map some).findIdx? Option.isNone = none := by
    simp [List.findIdx?_eq_none_iff]
  have hEntries : (Option.isNone ∘ fun e : Coordinate × NameSet =>
      if e.2 = NameSet.singleton [] then none else some (entryText e)) =
      fun e => decide (e.2 = NameSet.singleton []) := by
    funext e
    by_cases he : e.2 = NameSet.singleton [] <;> simp [he]
  rw [lines_eq_append, List.append_assoc, List.findIdx?_append, hBefore, List.findIdx?_append,
    List.findIdx?_map, hEntries, Option.none_or, List.length_map]
  simp [Lock.firstNameless?]

/-- Without such an entry every line is written. -/
theorem lines_eq_of_firstNameless? {f : LockFile} (h : f.lock.firstNameless? = none) :
    f.lines = f.writtenLines.map some := by
  have hEntries : f.lock.entries.map
      (fun e => if e.2 = NameSet.singleton [] then none else some (entryText e)) =
      (f.lock.entries.map entryText).map some := by
    rw [List.map_map]
    apply List.map_congr_left
    intro e he
    exact if_neg (by simpa using List.findIdx?_eq_none_iff.1 h e he)
  rw [lines_eq_append, hEntries, writtenLines]
  simp only [List.map_append, List.map_cons, List.map_nil]

/-- A lock file is written line by line, unless an entry has no line. The error
then is about the place of the line, which the lines before the entries are
counted in. -/
theorem render_eq_match (f : LockFile) (replaced : Text) :
    f.render replaced =
      match f.lock.firstNameless? with
      | some i => .error ⟨i + (f.comments ++ f.gap).length⟩
      | none => .ok (f.written replaced) := by
  rw [render, findIdx?_lines]
  cases h : f.lock.firstNameless? with
  | some i => rfl
  | none =>
    have hSome : (f.writtenLines.map some).filterMap id = f.writtenLines := by
      rw [List.filterMap_map]
      exact List.filterMap_some
    rw [lines_eq_of_firstNameless? h, hSome]
    rfl

/-- Without empty names each entry has a line. -/
theorem firstNameless?_eq_none {l : Lock} (h : ∀ e ∈ l.entries, ∀ n ∈ e.2, n ≠ []) :
    l.firstNameless? = none := by
  rw [Lock.firstNameless?, List.findIdx?_eq_none_iff]
  intro e he
  rw [decide_eq_false_iff_not]
  intro hNameless
  exact h e he [] (hNameless ▸ NameSet.mem_singleton.2 rfl) rfl

theorem lines_eq {f : LockFile} (h : ∀ e ∈ f.lock.entries, ∀ n ∈ e.2, n ≠ []) :
    f.lines = f.writtenLines.map some :=
  lines_eq_of_firstNameless? (firstNameless?_eq_none h)

/-- A lock file without empty names is written line by line. -/
theorem render_eq {f : LockFile} (h : ∀ e ∈ f.lock.entries, ∀ n ∈ e.2, n ≠ []) (replaced : Text) :
    f.render replaced = .ok (f.written replaced) := by
  rw [render_eq_match, firstNameless?_eq_none h]

-- ---------------------------------------------------------------------------
-- The lines of that text
-- ---------------------------------------------------------------------------

/-- The lines of the text are those that were written, and an empty one after them
where the text that is replaced ends in a line feed. -/
theorem splitOn_written {f : LockFile} (h : ∀ line ∈ f.writtenLines, char '\n' ∉ line)
    (replaced : Text) :
    (f.written replaced).splitOn (char '\n') =
      f.writtenLines ++ if replaced.getLast? = some (char '\n') then [[]] else [] := by
  have hBody : (Text.joinWith [char '\n'] f.writtenLines).splitOn (char '\n') = f.writtenLines :=
    Text.splitOn_joinWith (by simp [writtenLines]) h
  rw [written]
  by_cases hEnd : replaced.getLast? = some (char '\n')
  · rw [if_pos hEnd, if_pos hEnd, Text.splitOn_append_singleton, hBody]
  · rw [if_neg hEnd, if_neg hEnd, hBody, List.append_nil]

/-- A line with names on its right side does not end in a carriage return: names are
trimmed, and the sign before them is no blank. -/
theorem dropReturn_sides {s : NameSet} (h : ∀ n ∈ s, IsName n) (left : Text) :
    Text.dropLastChar (char '\r') (left ++ char '=' :: joinNames s.toList) =
      left ++ char '=' :: joinNames s.toList := by
  rw [Text.dropLastChar_eq_self_iff, List.getLast?_append, List.getLast?_cons]
  cases hLast : (joinNames s.toList).getLast? with
  | none => simp
  | some x =>
    have hBlank := getLast?_joinNames h hLast
    rintro ⟨rfl⟩
    exact absurd hBlank (by decide)

/-- A comment is a comment without the carriage return at its end. -/
theorem commentMark_prefix_dropReturn {line : Text} (h : Line.commentMark <+: line) :
    Line.commentMark <+: Text.dropLastChar (char '\r') line := by
  obtain ⟨rest, rfl⟩ := h
  rw [Text.dropLastChar]
  split
  · next hLast =>
    cases rest with
    | nil => exact absurd hLast (by decide)
    | cons x rest =>
      rw [List.dropLast_append_cons]
      exact List.prefix_append _ _
  · exact List.prefix_append _ _

variable {f : LockFile}

theorem eq_nil_of_mem_gap {line : Text} (h : line ∈ f.gap) : line = [] := by
  rw [gap] at h
  split at h
  · exact absurd h List.not_mem_nil
  · exact List.mem_singleton.1 h

/-- A character that has no meaning on a line is written only as part of what the
lock file holds. The letters with a meaning are the comma, the equals sign and those
of the mark of the last line. -/
theorem not_mem_of_mem_writtenLines {x : Letter} (hx : x ∉ ",=empty".text)
    (hComments : ∀ c ∈ f.comments, x ∉ c) (hCoordinates : ∀ c ∈ f.lock.locked.keys, x ∉ c.text)
    (hNames : ∀ n ∈ f.lock.tracked, x ∉ n) {line : Text} (h : line ∈ f.writtenLines) :
    x ∉ line := by
  obtain ⟨hComma, hEquals, hMark⟩ : x ≠ char ',' ∧ x ≠ char '=' ∧ x ∉ Line.emptyMark := by
    have hText : ",=empty".text = char ',' :: char '=' :: Line.emptyMark := rfl
    simpa [hText] using hx
  simp only [writtenLines, List.mem_append, List.mem_map, List.mem_singleton] at h
  -- the four parts of the text: comments, the gap, entries, and the last line
  rcases h with ((h | h) | ⟨e, he, rfl⟩) | rfl
  · exact hComments line h
  · rw [eq_nil_of_mem_gap h]
    exact List.not_mem_nil
  · rw [entryText, List.mem_append, List.mem_cons, not_or, not_or]
    exact ⟨hCoordinates e.1 (Lock.mem_keys_of_mem_entries he), hEquals,
      not_mem_joinNames hComma fun n hn => hNames n (Lock.mem_tracked_of_mem_entries he hn)⟩
  · rw [emptyLine, List.mem_append, List.mem_cons, not_or, not_or]
    exact ⟨hMark, hEquals,
      not_mem_joinNames hComma fun n hn => hNames n (Lock.mem_tracked.2 (Or.inl hn))⟩

/-- No line that is written holds a line feed, if comments, coordinates and names hold none. -/
theorem newline_not_mem_of_isSeparated (hComments : ∀ c ∈ f.comments, char '\n' ∉ c)
    (hLock : f.lock.IsSeparated) {line : Text} (h : line ∈ f.writtenLines) : char '\n' ∉ line := by
  refine not_mem_of_mem_writtenLines (by decide) hComments (fun c hc => ?_) (fun n hn => ?_) h
  · exact Coordinate.not_mem_text (by decide) (hLock.coordinates c hc).no_newline
  · exact (hLock.names n hn).no_newline

theorem newline_not_mem_writtenLines (hComments : ∀ c ∈ f.comments, char '\n' ∉ c)
    (hLock : f.lock.IsPlain) {line : Text} (h : line ∈ f.writtenLines) : char '\n' ∉ line :=
  newline_not_mem_of_isSeparated hComments hLock.isSeparated h

/-- What the line of an entry says: the entry, unless the mark of a comment comes first. -/
def readEntry (e : Coordinate × NameSet) : Line :=
  if Line.commentMark <+: e.1.group then .comment (entryText e) else .entry e.1 e.2

/-- The line of an entry is read as the entry, or as a comment if the group starts as comments do.
-/
theorem read_entryText {e : Coordinate × NameSet} (hc : e.1.IsSeparated)
    (hNames : ∀ n ∈ e.2, IsName n) :
    Line.read (Text.dropLastChar (char '\r') (entryText e)) = readEntry e := by
  rw [entryText, dropReturn_sides hNames, readEntry]
  by_cases hMark : Line.commentMark <+: e.1.group
  · rw [if_pos hMark, Line.read_comment (Coordinate.commentMark_prefix_text_iff.2 hMark), entryText]
  · rw [if_neg hMark, Line.read_entryLine (Coordinate.isPlain_iff.2 ⟨hc, hMark⟩) hNames]

/-- How the lines of a written lock file are read. The four parts of the text and the line after its
last line feed are read one by one. -/
theorem readLines_written_of_isSeparated
    (hComments : ∀ c ∈ f.comments, Line.commentMark <+: c ∧ char '\n' ∉ c)
    (hLock : f.lock.IsSeparated) (replaced : Text) :
    readLines (f.written replaced) =
      f.comments.map (fun c => Line.comment (Text.dropLastChar (char '\r') c)) ++
        f.gap.map (fun _ => Line.blank) ++
        f.lock.entries.map readEntry ++
        [Line.empty f.lock.empty] ++
        (if replaced.getLast? = some (char '\n') then [Line.blank] else []) := by
  have hnl : ∀ line ∈ f.writtenLines, char '\n' ∉ line := fun line =>
    newline_not_mem_of_isSeparated (fun c hc => (hComments c hc).2) hLock
  -- the four parts of the text are read separately: comments, the gap, entries, the last line
  have hCommentLines : f.comments.map (Line.read ∘ Text.dropLastChar (char '\r')) =
      f.comments.map fun c => Line.comment (Text.dropLastChar (char '\r') c) := by
    apply List.map_congr_left
    intro c hc
    exact Line.read_comment (commentMark_prefix_dropReturn (hComments c hc).1)
  have hGapLines : f.gap.map (Line.read ∘ Text.dropLastChar (char '\r')) =
      f.gap.map fun _ => Line.blank := by
    apply List.map_congr_left
    intro line hLine
    rw [eq_nil_of_mem_gap hLine]
    rfl
  have hEntryLines : f.lock.entries.map ((Line.read ∘ Text.dropLastChar (char '\r')) ∘ entryText) =
      f.lock.entries.map readEntry := by
    apply List.map_congr_left
    intro e he
    obtain ⟨hSeparated, hNames⟩ := hLock.of_mem_entries he
    exact read_entryText hSeparated hNames
  have hEmptyLine : (Line.read ∘ Text.dropLastChar (char '\r')) (emptyLine f.lock.empty.toList) =
      Line.empty f.lock.empty := by
    rw [Function.comp_apply, emptyLine, dropReturn_sides hLock.empty, ← emptyLine,
      Line.read_emptyLine hLock.empty]
  rw [readLines, linesOf, splitOn_written hnl, List.map_map, writtenLines]
  simp only [List.map_append, List.map_map, List.map_cons, List.map_nil]
  rw [hCommentLines, hGapLines, hEntryLines, hEmptyLine]
  split <;> rfl

/-- The entries of a plain lock are read as such: no coordinate of it has a group
that starts as comments do. -/
theorem readLines_written (hComments : ∀ c ∈ f.comments, Line.commentMark <+: c ∧ char '\n' ∉ c)
    (hLock : f.lock.IsPlain) (replaced : Text) :
    readLines (f.written replaced) =
      f.comments.map (fun c => Line.comment (Text.dropLastChar (char '\r') c)) ++
        f.gap.map (fun _ => Line.blank) ++
        f.lock.entries.map (fun e => Line.entry e.1 e.2) ++
        [Line.empty f.lock.empty] ++
        (if replaced.getLast? = some (char '\n') then [Line.blank] else []) := by
  have hEntries : f.lock.entries.map readEntry =
      f.lock.entries.map fun e => Line.entry e.1 e.2 := by
    apply List.map_congr_left
    intro e he
    exact if_neg (hLock.of_mem_entries he).1.no_comment
  rw [readLines_written_of_isSeparated hComments hLock.isSeparated, hEntries]

-- ---------------------------------------------------------------------------
-- Reading it back
-- ---------------------------------------------------------------------------

/-- The comments are read back, but for a carriage return at the end of each. -/
theorem comments_written (hComments : ∀ c ∈ f.comments, Line.commentMark <+: c ∧ char '\n' ∉ c)
    (hLock : f.lock.IsPlain) (replaced : Text) :
    (parse (f.written replaced)).comments = f.comments.map (Text.dropLastChar (char '\r')) := by
  have hGap : (Line.comment? ∘ fun _ : Text => Line.blank) = fun _ => none := rfl
  have hEntry : (Line.comment? ∘ fun e : Coordinate × NameSet => Line.entry e.1 e.2) =
      fun _ => none := rfl
  have hComment : (Line.comment? ∘ fun c => Line.comment (Text.dropLastChar (char '\r') c)) =
      fun c => some (Text.dropLastChar (char '\r') c) := rfl
  rw [comments_parse, readLines_written hComments hLock]
  simp only [List.filterMap_append, List.filterMap_map]
  rw [hGap, hEntry, hComment, List.filterMap_eq_map']
  split <;> simp [Line.comment?]

/-- The entries are read back as they are, in the order in which they were written. -/
theorem entries_written (hComments : ∀ c ∈ f.comments, Line.commentMark <+: c ∧ char '\n' ∉ c)
    (hLock : f.lock.IsPlain) (replaced : Text) :
    (readLines (f.written replaced)).filterMap Line.entry? = f.lock.entries := by
  have hGap : (Line.entry? ∘ fun _ : Text => Line.blank) = fun _ => none := rfl
  have hEntry : (Line.entry? ∘ fun e : Coordinate × NameSet => Line.entry e.1 e.2) = some := rfl
  have hComment : (Line.entry? ∘ fun c => Line.comment (Text.dropLastChar (char '\r') c)) =
      fun _ => none := rfl
  have hNone : ∀ ls : List Text,
      (ls.filterMap fun _ => (none : Option (Coordinate × NameSet))) = [] :=
    fun ls => List.filterMap_eq_nil_iff.2 fun _ _ => rfl
  rw [readLines_written hComments hLock]
  simp only [List.filterMap_append, List.filterMap_map]
  rw [hGap, hEntry, hComment, List.filterMap_some, hNone, hNone]
  split <;> simp [Line.entry?, List.filterMap_cons]

/-- The names with nothing to lock are read back. An entry whose group starts as
comments do is read as a comment, and adds no name to them either. -/
theorem mem_empty_written (hComments : ∀ c ∈ f.comments, Line.commentMark <+: c ∧ char '\n' ∉ c)
    (hLock : f.lock.IsSeparated) (replaced : Text) {n : Text} :
    n ∈ (parse (f.written replaced)).lock.empty ↔ n ∈ f.lock.empty := by
  rw [mem_empty_parse, readLines_written_of_isSeparated hComments hLock]
  constructor
  · rintro ⟨s, hs, hn⟩
    simp only [List.mem_append, List.mem_map, List.mem_singleton, reduceCtorEq, and_false,
      exists_false, false_or] at hs
    -- of the lines, only the last one is read as an empty line
    rcases hs with (⟨e, -, heq⟩ | heq) | hs
    · unfold readEntry at heq
      split at heq <;> simp at heq
    · exact Line.empty.inj heq ▸ hn
    · split at hs <;> simp at hs
  · intro hn
    exact ⟨f.lock.empty, by simp, hn⟩

/-- A coordinate keeps its names, unless its line is read as a comment. Then all of
them are lost, since it has no other line. -/
theorem mem_get_written (hComments : ∀ c ∈ f.comments, Line.commentMark <+: c ∧ char '\n' ∉ c)
    (hLock : f.lock.IsSeparated) (replaced : Text) {c : Coordinate} {n : Text} :
    n ∈ (parse (f.written replaced)).lock.locked.get c ↔
      n ∈ f.lock.locked.get c ∧ ¬ Line.commentMark <+: c.group := by
  rw [mem_get_parse, readLines_written_of_isSeparated hComments hLock]
  constructor
  · rintro ⟨s, hs, hn⟩
    simp only [List.mem_append, List.mem_map, List.mem_singleton, reduceCtorEq, and_false,
      exists_false, false_or, or_false] at hs
    -- an entry can only be what was written as one; the line at the end is blank
    rcases hs with ⟨e, he, heq⟩ | hs
    · unfold readEntry at heq
      split at heq
      · simp at heq
      next hMark =>
        obtain ⟨rfl, rfl⟩ := Line.entry.inj heq
        exact ⟨(Lock.mem_entries.1 he).1 ▸ hn, hMark⟩
    · split at hs <;> simp at hs
  · rintro ⟨hn, hMark⟩
    have he : (c, f.lock.locked.get c) ∈ f.lock.entries :=
      Lock.mem_entries.2 ⟨rfl, NameSet.ne_empty_iff.2 ⟨n, hn⟩⟩
    have hEntry : Line.entry c (f.lock.locked.get c) ∈ f.lock.entries.map readEntry :=
      List.mem_map.2 ⟨_, he, if_neg hMark⟩
    exact ⟨_, by simp only [List.mem_append, hEntry, or_true, true_or], hn⟩

/-- What is read from a written lock file: its tidy lock, and its comments but for a
last return. The text that was replaced does not matter. -/
theorem parse_written (hComments : ∀ c ∈ f.comments, Line.commentMark <+: c ∧ char '\n' ∉ c)
    (hLock : f.lock.IsPlain) (replaced : Text) :
    parse (f.written replaced) = ⟨f.comments.map (Text.dropLastChar (char '\r')), f.lock.tidy⟩ := by
  -- the entries that are read are added to an empty table, each coordinate once
  have hLocked : (parse (f.written replaced)).lock.locked = f.lock.tidy.locked := by
    apply LockTable.eq_of_entries_eq
    rw [locked_parse, entries_written hComments hLock, LockTable.entries_addEntries]
    · rfl
    · exact f.lock.nodup_entries
  have hEmpty : (parse (f.written replaced)).lock.empty = f.lock.empty :=
    NameSet.ext fun n => mem_empty_written hComments hLock.isSeparated replaced
  calc parse (f.written replaced)
      = ⟨(parse (f.written replaced)).comments, ⟨(parse (f.written replaced)).lock.locked,
          (parse (f.written replaced)).lock.empty⟩⟩ := rfl
    _ = ⟨f.comments.map (Text.dropLastChar (char '\r')), f.lock.tidy⟩ := by
        rw [comments_written hComments hLock, hLocked, hEmpty]
        rfl

theorem marked_of_isCommentLine (h : ∀ c ∈ f.comments, IsCommentLine c) :
    ∀ c ∈ f.comments, Line.commentMark <+: c ∧ char '\n' ∉ c :=
  fun c hc => ⟨(h c hc).marked, (h c hc).no_newline⟩

/-- A lock file whose comments do not end in a return is read back but for the order
of its lock. -/
theorem parse_written_eq (hComments : ∀ c ∈ f.comments, IsCommentLine c) (hLock : f.lock.IsPlain)
    (replaced : Text) : parse (f.written replaced) = ⟨f.comments, f.lock.tidy⟩ := by
  have hKeep : f.comments.map (Text.dropLastChar (char '\r')) = f.comments := by
    rw [List.map_congr_left fun c hc =>
      Text.dropLastChar_eq_self_iff.2 (hComments c hc).no_return]
    exact List.map_id _
  rw [parse_written (marked_of_isCommentLine hComments) hLock, hKeep]

/-- No line of a written lock file is lost. Even a comment that has lost its
carriage return is still a comment. -/
theorem droppedLines_written (hComments : ∀ c ∈ f.comments, Line.commentMark <+: c ∧ char '\n' ∉ c)
    (hLock : f.lock.IsPlain) (replaced : Text) : droppedLines (f.written replaced) = [] := by
  have hKept : ∀ l ∈ readLines (f.written replaced), l.dropReason? = none := by
    rw [readLines_written hComments hLock]
    intro l hl
    simp only [List.mem_append, List.mem_map, List.mem_singleton] at hl
    -- comments, the gap, entries, the last line, and the empty line after it: none of them is
    -- dropped
    rcases hl with (((⟨c, -, rfl⟩ | ⟨_, -, rfl⟩) | ⟨e, -, rfl⟩) | rfl) | hl
    · rfl
    · rfl
    · rfl
    · rfl
    · split at hl
      · rw [List.mem_singleton.1 hl]
        rfl
      · exact absurd hl List.not_mem_nil
  rw [droppedLines, List.filterMap_eq_nil_iff]
  rintro ⟨line, number⟩ hMem
  have hRead : Line.read line ∈ readLines (f.written replaced) :=
    List.mem_map_of_mem (List.fst_mem_of_mem_zipIdx hMem)
  show (Line.read line).dropReason?.map _ = none
  rw [hKept _ hRead, Option.map_none]

/--
**Reading undoes writing.** A lock file of plain comments and a plain lock has a
text, and what is read from that text is the comments, the names with nothing to
lock, and each coordinate that has names with just these names, in the order of
the coordinates' texts. No line is lost.
-/
theorem parse_render (hComments : ∀ c ∈ f.comments, IsCommentLine c) (hLock : f.lock.IsPlain)
    (replaced : Text) :
    ∃ text, f.render replaced = .ok text ∧
      (parse text).comments = f.comments ∧
      (parse text).lock.empty = f.lock.empty ∧
      (∀ c, c ∈ (parse text).lock.locked.keys ↔ f.lock.locked.get c ≠ ∅) ∧
      (∀ c, (parse text).lock.locked.get c = f.lock.locked.get c) ∧
      (parse text).lock.locked.keys.Pairwise (fun c d => c.text < d.text) ∧
      droppedLines text = [] := by
  refine ⟨f.written replaced, render_eq (fun e he n hn =>
    ((hLock.of_mem_entries he).2 n hn).ne_nil) replaced, ?_⟩
  -- the rest is about the tidy lock, which is what is read
  rw [parse_written_eq hComments hLock]
  refine ⟨rfl, rfl, fun c => Lock.mem_keys_tidy, Lock.get_tidy f.lock, ?_,
    droppedLines_written (marked_of_isCommentLine hComments) hLock replaced⟩
  exact List.pairwise_map.2 hLock.strict_entries

private def annotated : LockFile where
  comments := ["# kept".text]
  lock := {
    locked := LockTable.ofList [
      (⟨"org".text, "b".text, "2".text⟩, NameSet.ofList ["test".text, "main".text]),
      (⟨"org".text, "a".text, "1".text⟩, NameSet.ofList ["main".text]),
      (⟨"org".text, "gone".text, "3".text⟩, ∅)]
    empty := NameSet.ofList ["tools".text] }

theorem parse_render_annotated :
    (∀ c ∈ annotated.comments, IsCommentLine c) ∧ annotated.lock.IsPlain ∧
    ∃ text, annotated.render [char '\n'] = .ok text ∧
      (parse text).comments = annotated.comments ∧
      (parse text).lock.empty = annotated.lock.empty ∧
      (∀ c, c ∈ (parse text).lock.locked.keys ↔ annotated.lock.locked.get c ≠ ∅) ∧
      (∀ c, (parse text).lock.locked.get c = annotated.lock.locked.get c) ∧
      (parse text).lock.locked.keys.Pairwise (fun c d => c.text < d.text) ∧
      droppedLines text = [] :=
  have hComments : ∀ c ∈ annotated.comments, IsCommentLine c := by decide
  have hLock : annotated.lock.IsPlain := by decide
  ⟨hComments, hLock, parse_render hComments hLock [char '\n']⟩

end LockFile

end Lockstep
