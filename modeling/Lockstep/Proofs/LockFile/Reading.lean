import Lockstep.LockFile.Basic
import Lockstep.Proofs.Lock.Table
import Lockstep.Proofs.LockFile.Plain

/-!
# Lockstep — what is read from a text

Reading goes line by line, and each line adds to one part of the lock file only.
The parts are therefore read off the lines one by one:

* `comments_parse`, `mem_get_parse`, `mem_empty_parse` — each part of a lock file
  through the lines that were read.
* `isPlain_parse` — what is read can be written: names are names, coordinates are
  plain. Comments may still end in a carriage return.
-/

namespace Lockstep

-- ---------------------------------------------------------------------------
-- One line
-- ---------------------------------------------------------------------------

namespace Line

theorem isComment_iff {line : Text} : isComment line = true ↔ commentMark <+: line :=
  List.isPrefixOf_iff_prefix

theorem isAllBlank_eq_false {line : Text} {x : Letter} (hx : x ∈ line) (hBlank : isBlank x = false) :
    line.isAllBlank = false := by
  rw [← Bool.not_eq_true, Text.isAllBlank, List.all_eq_true]
  intro hAll
  rw [hAll x hx] at hBlank
  exact Bool.noConfusion hBlank

theorem read_comment {line : Text} (h : commentMark <+: line) : read line = .comment line := by
  rw [read, if_pos (isComment_iff.2 h)]

/-- How a line with two sides is read, unless it is a comment. It is not blank,
having an equals sign, so that only the left side is left to be looked at. -/
theorem read_sides {left right : Text} (hMark : ¬ commentMark <+: left ++ char '=' :: right)
    (hLeft : char '=' ∉ left) (hRight : char '=' ∉ right) :
    read (left ++ char '=' :: right) =
      if left = emptyMark then .empty (namesOf right)
      else (Coordinate.ofText? left).elim (.dropped .coordinate) fun c =>
        .entry c (namesOf right) := by
  have hBlank : (left ++ char '=' :: right).isAllBlank = false :=
    isAllBlank_eq_false (x := char '=') (by simp) (by decide)
  have hSides := sides?_eq_some_iff.2 ⟨rfl, hLeft, hRight⟩
  unfold read
  rw [if_neg fun h => hMark (isComment_iff.1 h), if_neg (by rw [hBlank]; simp)]
  simp only [hSides]
  cases Coordinate.ofText? left <;> rfl

/-- The line of the empty names is read with the names it was written for. -/
theorem read_emptyLine {s : NameSet} (h : ∀ n ∈ s, IsName n) :
    read (LockFile.emptyLine s.toList) = .empty s := by
  have hMark : ¬ commentMark <+: emptyMark ++ char '=' :: LockFile.joinNames s.toList := by
    rw [show commentMark = char '#' :: [char ' '] from rfl, show emptyMark = char 'e' :: "mpty".text from rfl,
      List.cons_append, List.cons_prefix_cons]
    exact fun hMark => absurd hMark.1 (by decide)
  have hNames := LockFile.not_mem_joinNames (by decide) fun n hn => (h n hn).no_equals
  rw [LockFile.emptyLine, read_sides hMark (by decide) hNames, if_pos rfl,
    LockFile.namesOf_joinNames h]

/-- The line of a plain entry is read with the coordinate and the names it was written for. -/
theorem read_entryLine {c : Coordinate} {s : NameSet} (hc : c.IsPlain) (h : ∀ n ∈ s, IsName n) :
    read (c.text ++ char '=' :: LockFile.joinNames s.toList) = .entry c s := by
  have hMark : ¬ commentMark <+: c.text ++ char '=' :: LockFile.joinNames s.toList := by
    rw [Coordinate.commentMark_prefix_text_iff]
    exact hc.no_comment
  have hEquals : char '=' ∉ c.text := Coordinate.not_mem_text (by decide) hc.no_equals
  -- a coordinate has colons, and the mark of the empty line has none
  have hEmpty : c.text ≠ emptyMark := by
    intro heq
    have hColon : char ':' ∈ emptyMark := by
      rw [← heq]
      simp [Coordinate.text]
    exact absurd hColon (by decide)
  have hNames := LockFile.not_mem_joinNames (by decide) fun n hn => (h n hn).no_equals
  rw [read_sides hMark hEquals hNames, if_neg hEmpty, Coordinate.ofText?_text hc,
    LockFile.namesOf_joinNames h, Option.elim_some]

-- ---------------------------------------------------------------------------
-- What a line can have been
-- ---------------------------------------------------------------------------

/-- What is read as a comment is the whole line. -/
theorem of_read_comment {line text : Text} (h : read line = .comment text) :
    line = text ∧ commentMark <+: line := by
  rw [read] at h
  split at h
  · next hMark => exact ⟨Line.comment.inj h, isComment_iff.1 hMark⟩
  · repeat' split at h
    all_goals exact Line.noConfusion h

/-- What is read as an empty line has the mark on its left side and the names on its
right side. -/
theorem of_read_empty {line : Text} {s : NameSet} (h : read line = .empty s) :
    ∃ right, line = emptyMark ++ char '=' :: right ∧ char '=' ∉ right ∧ s = namesOf right := by
  rw [read] at h
  -- the reader's tests one after the other, up to the one that answers with an empty line
  split at h
  · exact Line.noConfusion h
  split at h
  · exact Line.noConfusion h
  split at h
  · exact Line.noConfusion h
  next left right hSides =>
    obtain ⟨rfl, -, hRight⟩ := sides?_eq_some_iff.1 hSides
    split at h
    · next hLeft =>
      subst hLeft
      exact ⟨right, rfl, hRight, (Line.empty.inj h).symm⟩
    · split at h <;> exact Line.noConfusion h

/-- What is read as an entry has a coordinate on its left side, without any of the
signs at which lines and coordinates are split, and the names on its right side. -/
theorem of_read_entry {line : Text} {c : Coordinate} {s : NameSet} (h : read line = .entry c s) :
    ∃ right, line = c.text ++ char '=' :: right ∧ char '=' ∉ c.text ∧ char '=' ∉ right ∧
      (∀ field ∈ c.fields, char ':' ∉ field) ∧ ¬ commentMark <+: c.group ∧ s = namesOf right := by
  rw [read] at h
  -- the reader's tests one after the other; each line but the last kind is read as something else
  split at h
  · exact Line.noConfusion h
  next hMark =>
  split at h
  · exact Line.noConfusion h
  split at h
  · exact Line.noConfusion h
  next left right hSides =>
    obtain ⟨rfl, hLeft, hRight⟩ := sides?_eq_some_iff.1 hSides
    split at h
    · exact Line.noConfusion h
    split at h
    · exact Line.noConfusion h
    next d hd =>
      obtain ⟨rfl, rfl⟩ := Line.entry.inj h
      obtain ⟨rfl, hColon⟩ := Coordinate.ofText?_eq_some_iff.1 hd
      refine ⟨right, rfl, hLeft, hRight, hColon, ?_, rfl⟩
      rw [isComment_iff, Coordinate.commentMark_prefix_text_iff] at hMark
      exact hMark

-- ---------------------------------------------------------------------------
-- What a line adds
-- ---------------------------------------------------------------------------

/-- The comment that a line is. -/
def comment? : Line → Option Text
  | .comment text => some text
  | _ => none

/-- The entry that a line is. -/
def entry? : Line → Option (Coordinate × NameSet)
  | .entry c names => some (c, names)
  | _ => none

end Line

namespace LockFile

/-- The lines of a text, as they are read. -/
def readLines (text : Text) : List Line := (linesOf text).map Line.read

/-- Further lines add their comments, and nothing else, to the comments. -/
theorem comments_foldl (ls : List Line) (f : LockFile) :
    (ls.foldl addLine f).comments = f.comments ++ ls.filterMap Line.comment? := by
  induction ls generalizing f with
  | nil => simp
  | cons l rest ih =>
    rw [List.foldl_cons, ih]
    cases l <;> simp [addLine, Line.comment?, List.filterMap_cons]

/-- Further lines add their entries, and nothing else, to the table. -/
theorem locked_foldl (ls : List Line) (f : LockFile) :
    (ls.foldl addLine f).lock.locked = f.lock.locked.addEntries (ls.filterMap Line.entry?) := by
  induction ls generalizing f with
  | nil => rfl
  | cons l rest ih =>
    rw [List.foldl_cons, ih]
    cases l <;> simp [addLine, Line.entry?, List.filterMap_cons]

/-- Further lines add the names of their empty lines to those with nothing to lock. -/
theorem mem_empty_foldl {ls : List Line} {f : LockFile} {n : Text} :
    n ∈ (ls.foldl addLine f).lock.empty ↔ n ∈ f.lock.empty ∨ ∃ s, .empty s ∈ ls ∧ n ∈ s := by
  induction ls generalizing f with
  | nil => simp
  | cons l rest ih =>
    rw [List.foldl_cons, ih]
    -- an empty line adds its names, and no other line adds any
    cases l with
    | empty names =>
      rw [addLine, NameSet.mem_union, or_assoc]
      refine or_congr_right ⟨?_, ?_⟩
      · rintro (hn | ⟨s, hs, hn⟩)
        · exact ⟨names, List.mem_cons_self, hn⟩
        · exact ⟨s, List.mem_cons_of_mem _ hs, hn⟩
      · rintro ⟨s, hs, hn⟩
        rcases List.mem_cons.1 hs with heq | hs
        · exact Or.inl (Line.empty.inj heq ▸ hn)
        · exact Or.inr ⟨s, hs, hn⟩
    | comment text => simp [addLine]
    | blank => simp [addLine]
    | entry c names => simp [addLine]
    | dropped reason => simp [addLine]

/-- The comments of a lock file are those of its lines, in their order. -/
theorem comments_parse (text : Text) :
    (parse text).comments = (readLines text).filterMap Line.comment? := by
  rw [parse, comments_foldl]
  rfl

/-- The table of a lock file is made of the entries of its lines, one after the other. -/
theorem locked_parse (text : Text) :
    (parse text).lock.locked = (∅ : LockTable).addEntries ((readLines text).filterMap Line.entry?) := by
  rw [parse, locked_foldl]
  rfl

/-- A name has nothing to lock if some line says so. -/
theorem mem_empty_parse {text n : Text} :
    n ∈ (parse text).lock.empty ↔ ∃ s, .empty s ∈ readLines text ∧ n ∈ s := by
  rw [parse, mem_empty_foldl]
  exact or_iff_right (NameSet.not_mem_empty n)

-- ---------------------------------------------------------------------------
-- What is read can be written
-- ---------------------------------------------------------------------------

theorem newline_not_mem_of_mem_linesOf {text line : Text} (h : line ∈ linesOf text) :
    char '\n' ∉ line := by
  obtain ⟨piece, hPiece, rfl⟩ := List.mem_map.1 h
  exact fun hMem => Text.not_mem_of_mem_splitOn hPiece (Text.mem_of_mem_dropLastChar hMem)

/-- The comments are the lines that start as comments do, each as a whole. Nothing
else about a line matters, not even that it could be an entry. -/
theorem comments_parse_eq_filter (text : Text) :
    (parse text).comments = (linesOf text).filter Line.isComment := by
  rw [comments_parse, readLines, List.filterMap_map, ← List.filterMap_eq_filter]
  congr 1
  funext line
  rw [Function.comp_apply, Option.guard]
  cases hMark : Line.isComment line with
  | true => rw [Line.read_comment (Line.isComment_iff.1 hMark), Line.comment?, if_pos rfl]
  | false =>
    have hno : ¬ Line.commentMark <+: line := fun h => by simp [Line.isComment_iff.2 h] at hMark
    -- a line without the mark is read as something else than a comment
    cases hRead : Line.read line with
    | comment t => exact absurd (Line.of_read_comment hRead).2 hno
    | blank => rfl
    | empty names => rfl
    | entry c names => rfl
    | dropped reason => rfl

theorem mem_comments_parse {text line : Text} :
    line ∈ (parse text).comments ↔ line ∈ linesOf text ∧ Line.commentMark <+: line := by
  rw [comments_parse_eq_filter, List.mem_filter, Line.isComment_iff]

/-- An entry is read if some line is read as it. -/
theorem mem_entries_readLines {text : Text} {e : Coordinate × NameSet} :
    e ∈ (readLines text).filterMap Line.entry? ↔ .entry e.1 e.2 ∈ readLines text := by
  rw [List.mem_filterMap]
  constructor
  · rintro ⟨l, hl, he⟩
    cases l with
    | entry c names =>
      obtain rfl := Option.some.inj he
      exact hl
    | comment t => simp [Line.entry?] at he
    | blank => simp [Line.entry?] at he
    | empty names => simp [Line.entry?] at he
    | dropped reason => simp [Line.entry?] at he
  · exact fun hl => ⟨_, hl, rfl⟩

/-- A name locks a coordinate if some line says so. -/
theorem mem_get_parse {text n : Text} {c : Coordinate} :
    n ∈ (parse text).lock.locked.get c ↔ ∃ s, .entry c s ∈ readLines text ∧ n ∈ s := by
  rw [locked_parse, LockTable.mem_get_addEntries]
  constructor
  · rintro (h | ⟨e, he, rfl, hn⟩)
    · exact absurd h (NameSet.not_mem_empty n)
    · exact ⟨e.2, mem_entries_readLines.1 he, hn⟩
  · rintro ⟨s, hs, hn⟩
    exact Or.inr ⟨(c, s), mem_entries_readLines.2 hs, rfl, hn⟩

/-- What some line is read as can be said of the lines of the text. -/
theorem exists_mem_readLines_iff {text : Text} {P : NameSet → Prop} {l : NameSet → Line} :
    (∃ s, l s ∈ readLines text ∧ P s) ↔ ∃ line ∈ linesOf text, ∃ s, Line.read line = l s ∧ P s := by
  constructor
  · rintro ⟨s, hs, hP⟩
    obtain ⟨line, hLine, hRead⟩ := List.mem_map.1 hs
    exact ⟨line, hLine, s, hRead, hP⟩
  · rintro ⟨line, hLine, s, hRead, hP⟩
    exact ⟨s, List.mem_map.2 ⟨line, hLine, hRead⟩, hP⟩

theorem mem_get_parse_iff {text n : Text} {c : Coordinate} :
    n ∈ (parse text).lock.locked.get c ↔
      ∃ line ∈ linesOf text, ∃ s, Line.read line = .entry c s ∧ n ∈ s :=
  mem_get_parse.trans exists_mem_readLines_iff

theorem mem_empty_parse_iff {text n : Text} :
    n ∈ (parse text).lock.empty ↔ ∃ line ∈ linesOf text, ∃ s, Line.read line = .empty s ∧ n ∈ s :=
  mem_empty_parse.trans exists_mem_readLines_iff

/-- Each coordinate that was read has a line. -/
theorem exists_line_of_mem_keys_parse {text : Text} {c : Coordinate}
    (h : c ∈ (parse text).lock.locked.keys) :
    ∃ line ∈ linesOf text, ∃ s, Line.read line = .entry c s := by
  rw [locked_parse, LockTable.mem_keys_addEntries] at h
  rcases h with h | ⟨e, he, rfl⟩
  · exact absurd h List.not_mem_nil
  · obtain ⟨line, hLine, hRead⟩ := List.mem_map.1 (mem_entries_readLines.1 he)
    exact ⟨line, hLine, e.2, hRead⟩

/-- Each name that was read has a line. -/
theorem exists_line_of_mem_tracked_parse {text n : Text} (h : n ∈ (parse text).lock.tracked) :
    ∃ line ∈ linesOf text, ∃ s, n ∈ s ∧
      (Line.read line = .empty s ∨ ∃ c, Line.read line = .entry c s) := by
  rcases Lock.mem_tracked.1 h with h | ⟨c, h⟩
  · obtain ⟨line, hLine, s, hRead, hn⟩ := mem_empty_parse_iff.1 h
    exact ⟨line, hLine, s, hn, Or.inl hRead⟩
  · obtain ⟨line, hLine, s, hRead, hn⟩ := mem_get_parse_iff.1 h
    exact ⟨line, hLine, s, hn, Or.inr ⟨c, hRead⟩⟩

/-- A name stands on the right side of its line. -/
theorem exists_right_of_read {line : Text} {s : NameSet}
    (h : Line.read line = .empty s ∨ ∃ c, Line.read line = .entry c s) :
    ∃ left right, line = left ++ char '=' :: right ∧ char '=' ∉ right ∧ s = Line.namesOf right := by
  rcases h with h | ⟨c, h⟩
  · obtain ⟨right, hLine, hRight, hs⟩ := Line.of_read_empty h
    exact ⟨Line.emptyMark, right, hLine, hRight, hs⟩
  · obtain ⟨right, hLine, -, hRight, -, -, hs⟩ := Line.of_read_entry h
    exact ⟨c.text, right, hLine, hRight, hs⟩

/-- Whatever a text holds, what is read from it can be written. The signs at which a
line is split cannot be part of what it was split into. -/
theorem isPlain_parse (text : Text) : (parse text).lock.IsPlain := by
  constructor
  · intro c hc
    obtain ⟨line, hLine, s, hRead⟩ := exists_line_of_mem_keys_parse hc
    have hnl := newline_not_mem_of_mem_linesOf hLine
    -- a coordinate is the left side of a line, a name a piece of a right side
    obtain ⟨right, rfl, hLeft, -, hColon, hMark, -⟩ := Line.of_read_entry hRead
    rw [List.mem_append, not_or] at hnl
    refine ⟨hColon, ?_, ?_, hMark⟩
    · exact fun field hField hx => hLeft (Coordinate.mem_text_of_mem hField hx)
    · exact fun field hField hx => hnl.1 (Coordinate.mem_text_of_mem hField hx)
  · intro n hn
    obtain ⟨line, hLine, s, hs, hRead⟩ := exists_line_of_mem_tracked_parse hn
    have hnl := newline_not_mem_of_mem_linesOf hLine
    obtain ⟨left, right, rfl, hRight, rfl⟩ := exists_right_of_read hRead
    rw [List.mem_append, List.mem_cons, not_or, not_or] at hnl
    exact Line.isName_of_mem_namesOf hRight hnl.2.2 hs

-- ---------------------------------------------------------------------------
-- What is read stands in the text
-- ---------------------------------------------------------------------------

theorem mem_of_mem_line {text line : Text} {x : Letter} (h : line ∈ linesOf text) (hx : x ∈ line) :
    x ∈ text := by
  obtain ⟨piece, hPiece, rfl⟩ := List.mem_map.1 h
  exact Text.mem_of_mem_piece hPiece (Text.mem_of_mem_dropLastChar hx)

theorem mem_of_mem_key {text : Text} {c : Coordinate} {x : Letter}
    (h : c ∈ (parse text).lock.locked.keys) (hx : x ∈ c.text) : x ∈ text := by
  obtain ⟨line, hLine, s, hRead⟩ := exists_line_of_mem_keys_parse h
  obtain ⟨right, rfl, -⟩ := Line.of_read_entry hRead
  exact mem_of_mem_line hLine (List.mem_append_left _ hx)

theorem mem_of_mem_tracked {text n : Text} {x : Letter} (h : n ∈ (parse text).lock.tracked)
    (hx : x ∈ n) : x ∈ text := by
  obtain ⟨line, hLine, s, hs, hRead⟩ := exists_line_of_mem_tracked_parse h
  obtain ⟨left, right, rfl, -, rfl⟩ := exists_right_of_read hRead
  have hRight := Line.mem_of_mem_namesOf hs hx
  exact mem_of_mem_line hLine (List.mem_append_right _ (List.mem_cons_of_mem _ hRight))

/-- A text with a name in it is not blank. -/
theorem isAllBlank_of_mem_tracked_parse {text n : Text} (h : n ∈ (parse text).lock.tracked) :
    text.isAllBlank = false := by
  obtain ⟨line, hLine, s, -, hRead⟩ := exists_line_of_mem_tracked_parse h
  obtain ⟨left, right, rfl, -⟩ := exists_right_of_read hRead
  have hSign : char '=' ∈ text := mem_of_mem_line hLine (by simp)
  exact Line.isAllBlank_eq_false hSign (by decide)

end LockFile

end Lockstep
