import Lockstep.Proofs.LockFile.Reading
import Lockstep.Update

/-!
# Lockstep — the kinds of lines

A line is of one of five kinds, and its characters decide of which one, whatever
is done to read it (`Line.Kind.Matches`). A text is known from its lines of each
kind: nothing else is read from it, and no line is left out without a report.

* `Line.existsUnique_matches` — every line is of exactly one kind.
* `Line.read_eq_entry_iff`, `Line.dropReason?_read` — what is read from a line, by its kind.
* `parse_exact` — each part of a lock file, and the report, from the lines of the text.
-/

namespace Lockstep

namespace Line

-- ---------------------------------------------------------------------------
-- The grammar
-- ---------------------------------------------------------------------------

/-- What stands before the first equals sign of a line. -/
def left (line : Text) : Text := line.takeWhile (· != char '=')

/-- What stands after the first equals sign of a line. -/
def right (line : Text) : Text := (line.dropWhile (· != char '=')).drop 1

/-- What a line can be. -/
inductive Kind where
  | comment
  | blank
  | empty
  | entry
  | dropped
  deriving DecidableEq, Repr

/-- The lines of a kind. Where a comment looks like an entry, it is a comment. -/
def Kind.Matches : Kind → Text → Prop
  | comment, line => "# ".text <+: line
  | blank, line => line.trim = []
  | empty, line => line.count (char '=') = 1 ∧ left line = "empty".text
  | entry, line => ¬ "# ".text <+: line ∧ line.count (char '=') = 1 ∧ (left line).count (char ':') = 2
  | dropped, line => ¬ "# ".text <+: line ∧ line.trim ≠ [] ∧
      (line.count (char '=') = 1 → left line ≠ "empty".text ∧ (left line).count (char ':') ≠ 2)

instance : (k : Kind) → (line : Text) → Decidable (k.Matches line)
  | .comment, line => inferInstanceAs (Decidable ("# ".text <+: line))
  | .blank, line => inferInstanceAs (Decidable (line.trim = []))
  | .empty, _ => inferInstanceAs (Decidable (_ ∧ _))
  | .entry, _ => inferInstanceAs (Decidable (_ ∧ _))
  | .dropped, _ => inferInstanceAs (Decidable (_ ∧ _))

/-- A name stands between commas on the right side, with or without blanks around it. -/
def Lists (line n : Text) : Prop := n ≠ [] ∧ ∃ piece ∈ (right line).splitOn (char ','), piece.trim = n

/-- The line is an entry, and the three parts of its left side are those of a coordinate. -/
def IsEntryOf (c : Coordinate) (line : Text) : Prop :=
  Kind.entry.Matches line ∧ (left line).splitOn (char ':') = c.fields

-- ---------------------------------------------------------------------------
-- The two sides of a line
-- ---------------------------------------------------------------------------

section Sides

variable {l r : Text}

theorem left_sides (h : char '=' ∉ l) (r : Text) : left (l ++ char '=' :: r) = l := by
  have hKept : ∀ x ∈ l, (x != char '=') = true := fun x hx => bne_iff_ne.2 fun heq => h (heq ▸ hx)
  rw [left, List.takeWhile_append_of_pos hKept]
  simp

theorem right_sides (h : char '=' ∉ l) (r : Text) : right (l ++ char '=' :: r) = r := by
  have hKept : ∀ x ∈ l, (x != char '=') = true := fun x hx => bne_iff_ne.2 fun heq => h (heq ▸ hx)
  rw [right, List.dropWhile_append_of_pos hKept]
  simp

theorem count_sides (hl : char '=' ∉ l) (hr : char '=' ∉ r) : (l ++ char '=' :: r).count (char '=') = 1 := by
  rw [List.count_append, List.count_cons_self, List.count_eq_zero.2 hl, List.count_eq_zero.2 hr]

/-- A line with one equals sign has two sides, and no other line has. The sides are
those around the first sign; whether there is a second one is told by the count. -/
theorem sides?_eq (line : Text) :
    sides? line = if line.count (char '=') = 1 then some (left line, right line) else none := by
  by_cases hMem : char '=' ∈ line
  · obtain ⟨l, r, rfl, hl⟩ := List.eq_append_cons_of_mem hMem
    rw [left_sides hl, right_sides hl]
    -- there is a first sign; the sides are those around it unless a second one follows
    by_cases hr : char '=' ∈ r
    · have hCount : (l ++ char '=' :: r).count (char '=') ≠ 1 := by
        have hPos := List.count_pos_iff.2 hr
        rw [List.count_append, List.count_cons_self]
        omega
      rw [if_neg hCount, Option.eq_none_iff_forall_ne_some]
      rintro ⟨l', r'⟩ hSides
      obtain ⟨heq, hl', hr'⟩ := sides?_eq_some_iff.1 hSides
      exact hCount (heq ▸ count_sides hl' hr')
    · rw [if_pos (count_sides hl hr)]
      exact sides?_eq_some_iff.2 ⟨rfl, hl, hr⟩
  · rw [if_neg (by rw [List.count_eq_zero.2 hMem]; decide), Option.eq_none_iff_forall_ne_some]
    rintro ⟨l', r'⟩ hSides
    obtain ⟨rfl, -⟩ := sides?_eq_some_iff.1 hSides
    exact hMem (by simp)

end Sides

-- ---------------------------------------------------------------------------
-- What is read from a line of each kind
-- ---------------------------------------------------------------------------

variable {line : Text}

theorem trim_ne_nil_of_mem {x : Letter} (hx : x ∈ line) (hBlank : isBlank x = false) :
    line.trim ≠ [] := by
  intro hNil
  rw [Text.trim_eq_nil_iff, isAllBlank_eq_false hx hBlank] at hNil
  exact Bool.noConfusion hNil

theorem trim_ne_nil_of_count (h : line.count (char '=') = 1) : line.trim ≠ [] :=
  have hPos : 0 < line.count (char '=') := by omega
  trim_ne_nil_of_mem (List.count_pos_iff.1 hPos) (by decide)

theorem trim_ne_nil_of_comment (h : "# ".text <+: line) : line.trim ≠ [] :=
  trim_ne_nil_of_mem (h.subset List.mem_cons_self) (by decide)

/-- A line cannot begin as comments do and with the mark of the empty line. -/
theorem not_comment_of_left_eq (h : left line = "empty".text) : ¬ "# ".text <+: line := by
  intro hMark
  have hLeft : "empty".text <+: line := h ▸ List.takeWhile_prefix _
  obtain ⟨rest, rfl⟩ := hLeft
  exact absurd (List.cons_prefix_cons.1 hMark).1 (by decide)

/-- How a line is read, said by its characters. The tests are made in the
order in which the reader makes them, so that a comment that looks like an
entry is a comment. -/
theorem read_eq (line : Text) :
    read line =
      if "# ".text <+: line then .comment line
      else if line.trim = [] then .blank
      else if line.count (char '=') = 1 then
        if left line = "empty".text then .empty (namesOf (right line))
        else (Coordinate.ofText? (left line)).elim (.dropped .coordinate) fun c =>
          .entry c (namesOf (right line))
      else .dropped .separator := by
  unfold read
  simp only [isComment_iff, ← Text.trim_eq_nil_iff, sides?_eq]
  -- the two sides are there or not, and then the left one is a coordinate or not
  by_cases hCount : line.count (char '=') = 1
  · simp only [hCount, if_true]
    cases Coordinate.ofText? (left line) <;> rfl
  · simp only [hCount, if_false]
    rfl

theorem ofText?_eq_none {t : Text} (h : t.count (char ':') ≠ 2) : Coordinate.ofText? t = none := by
  cases hc : Coordinate.ofText? t with
  | none => rfl
  | some c =>
    have hLength := Text.length_splitOn (char ':') t
    rw [Coordinate.ofText?_eq_some_iff_splitOn.1 hc] at hLength
    exact absurd (Nat.succ.inj hLength.symm) h

theorem read_blank (h : Kind.blank.Matches line) : read line = .blank := by
  have hNil : line.trim = [] := h
  rw [read_eq, if_neg fun hMark => trim_ne_nil_of_comment hMark hNil, if_pos hNil]

theorem read_empty (h : Kind.empty.Matches line) : read line = .empty (namesOf (right line)) := by
  obtain ⟨hCount, hLeft⟩ := h
  rw [read_eq, if_neg (not_comment_of_left_eq hLeft), if_neg (trim_ne_nil_of_count hCount),
    if_pos hCount, if_pos hLeft]

/-- An entry is read with its coordinate and the names on its right side. -/
theorem read_entry {c : Coordinate} (h : IsEntryOf c line) :
    read line = .entry c (namesOf (right line)) := by
  obtain ⟨⟨hMark, hCount, hColons⟩, hParts⟩ := h
  have hLeft : left line ≠ "empty".text := by
    intro heq
    rw [heq] at hColons
    exact absurd hColons (by decide)
  rw [read_eq, if_neg hMark, if_neg (trim_ne_nil_of_count hCount), if_pos hCount, if_neg hLeft,
    Coordinate.ofText?_eq_some_iff_splitOn.2 hParts, Option.elim_some]

/-- A line of no other kind is dropped, for its equals signs or else for its coordinate. -/
theorem read_dropped (h : Kind.dropped.Matches line) :
    read line = .dropped (if line.count (char '=') = 1 then .coordinate else .separator) := by
  obtain ⟨hMark, hBlank, hSides⟩ := h
  rw [read_eq, if_neg hMark, if_neg hBlank]
  by_cases hCount : line.count (char '=') = 1
  · obtain ⟨hLeft, hColons⟩ := hSides hCount
    rw [if_pos hCount, if_pos hCount, if_neg hLeft, ofText?_eq_none hColons, Option.elim_none]
  · rw [if_neg hCount, if_neg hCount]

-- ---------------------------------------------------------------------------
-- One kind for each line
-- ---------------------------------------------------------------------------

/-- The kind of a line that has been read. -/
def kind : Line → Kind
  | .comment _ => .comment
  | .blank => .blank
  | .empty _ => .empty
  | .entry _ _ => .entry
  | .dropped _ => .dropped

/-- Every line is of some kind: `dropped` is what all the others leave over. A blank
line has no equals sign, so that it is not among the lines that could be entries. -/
theorem exists_matches (line : Text) : ∃ k : Kind, k.Matches line := by
  by_cases hMark : "# ".text <+: line
  · exact ⟨.comment, hMark⟩
  by_cases hBlank : line.trim = []
  · exact ⟨.blank, hBlank⟩
  by_cases hEmpty : Kind.empty.Matches line
  · exact ⟨.empty, hEmpty⟩
  by_cases hEntry : Kind.entry.Matches line
  · exact ⟨.entry, hEntry⟩
  · exact ⟨.dropped, hMark, hBlank, fun hCount =>
      ⟨fun hLeft => hEmpty ⟨hCount, hLeft⟩, fun hColons => hEntry ⟨hMark, hCount, hColons⟩⟩⟩

/-- The left side of an entry has three parts, which are the fields of a coordinate. -/
theorem exists_isEntryOf (h : Kind.entry.Matches line) : ∃ c, IsEntryOf c line := by
  have hLength := Text.length_splitOn (char ':') (left line)
  rw [h.2.2] at hLength
  match hParts : (left line).splitOn (char ':'), hLength with
  | [g, a, v], _ => exact ⟨⟨g, a, v⟩, h, hParts⟩

/-- What is read from a line tells of which kind it is. -/
theorem kind_read {k : Kind} (h : k.Matches line) : (read line).kind = k := by
  cases k with
  | comment => rw [read_comment h, kind]
  | blank => rw [read_blank h, kind]
  | empty => rw [read_empty h, kind]
  | entry =>
    obtain ⟨c, hc⟩ := exists_isEntryOf h
    rw [read_entry hc, kind]
  | dropped => rw [read_dropped h, kind]

/-- A line is of the kind that it is read as. The kinds are said by characters
alone, so that this compares the reader with the format. -/
theorem matches_iff {k : Kind} : k.Matches line ↔ (read line).kind = k := by
  refine ⟨kind_read, ?_⟩
  rintro rfl
  obtain ⟨k, hk⟩ := exists_matches line
  rw [kind_read hk]
  exact hk

/-- Every line is of exactly one kind, since it is read as one thing. -/
theorem existsUnique_matches (line : Text) : ∃! k : Kind, k.Matches line :=
  ⟨(read line).kind, matches_iff.2 rfl, fun _ hk => (matches_iff.1 hk).symm⟩

-- ---------------------------------------------------------------------------
-- What a line says
-- ---------------------------------------------------------------------------

theorem mem_namesOf_right {n : Text} : n ∈ namesOf (right line) ↔ Lists line n := mem_namesOf

/-- The lines that are read as an empty line, and the names that they are read with. -/
theorem read_eq_empty_iff {s : NameSet} :
    read line = .empty s ↔ Kind.empty.Matches line ∧ s = namesOf (right line) := by
  constructor
  · intro h
    have hKind : Kind.empty.Matches line := matches_iff.2 (by rw [h, kind])
    exact ⟨hKind, Line.empty.inj (h.symm.trans (read_empty hKind))⟩
  · rintro ⟨hKind, rfl⟩
    exact read_empty hKind

/-- The lines that are read as an entry of a coordinate, and the names that they
are read with. -/
theorem read_eq_entry_iff {c : Coordinate} {s : NameSet} :
    read line = .entry c s ↔ IsEntryOf c line ∧ s = namesOf (right line) := by
  constructor
  · intro h
    have hKind : Kind.entry.Matches line := matches_iff.2 (by rw [h, kind])
    obtain ⟨d, hd⟩ := exists_isEntryOf hKind
    obtain ⟨rfl, rfl⟩ := Line.entry.inj (h.symm.trans (read_entry hd))
    exact ⟨hd, rfl⟩
  · rintro ⟨hc, rfl⟩
    exact read_entry hc

/-- The names of a line that is read with the names on its right side are those
that it lists. -/
theorem exists_read_iff {l : NameSet → Line} {P : Prop} {n : Text}
    (h : ∀ s, read line = l s ↔ P ∧ s = namesOf (right line)) :
    (∃ s, read line = l s ∧ n ∈ s) ↔ P ∧ Lists line n := by
  rw [← mem_namesOf_right]
  constructor
  · rintro ⟨s, hRead, hn⟩
    obtain ⟨hP, rfl⟩ := (h s).1 hRead
    exact ⟨hP, hn⟩
  · rintro ⟨hP, hn⟩
    exact ⟨_, (h _).2 ⟨hP, rfl⟩, hn⟩

/-- A line is reported iff it is dropped, as one without two sides if it does not
have them. Comments and blank lines are left out without a word. -/
theorem dropReason?_read (line : Text) :
    (read line).dropReason? =
      if Kind.dropped.Matches line then
        some (if line.count (char '=') = 1 then .coordinate else .separator)
      else none := by
  by_cases hKind : Kind.dropped.Matches line
  · rw [if_pos hKind, read_dropped hKind, dropReason?]
  · rw [if_neg hKind]
    rw [matches_iff] at hKind
    cases hRead : read line with
    | dropped reason => exact absurd (by rw [hRead, kind]) hKind
    | _ => rfl

end Line

namespace LockFile

variable {text : Text}

/-- The comments of a lock file are the comment lines of the text, each as it stands there. -/
theorem comments_parse_eq_matches (text : Text) :
    (parse text).comments = (linesOf text).filter fun line => Line.Kind.comment.Matches line := by
  rw [comments_parse_eq_filter]
  apply List.filter_congr
  intro line _
  rw [Bool.eq_iff_iff, Line.isComment_iff, decide_eq_true_eq]
  rfl

/-- A name has nothing to lock if some empty line lists it. There may be several of
these lines. -/
theorem mem_empty_parse_iff_lists {n : Text} :
    n ∈ (parse text).lock.empty ↔
      ∃ line ∈ linesOf text, Line.Kind.empty.Matches line ∧ Line.Lists line n := by
  rw [mem_empty_parse_iff]
  exact exists_congr fun _ => and_congr_right fun _ =>
    Line.exists_read_iff fun _ => Line.read_eq_empty_iff

/-- A name locks a coordinate if some entry of it lists the name. -/
theorem mem_get_parse_iff_lists {c : Coordinate} {n : Text} :
    n ∈ (parse text).lock.locked.get c ↔
      ∃ line ∈ linesOf text, Line.IsEntryOf c line ∧ Line.Lists line n := by
  rw [mem_get_parse_iff]
  exact exists_congr fun _ => and_congr_right fun _ =>
    Line.exists_read_iff fun _ => Line.read_eq_entry_iff

/-- The coordinates of a lock file, each where it is met first. -/
theorem keys_parse (text : Text) :
    (parse text).lock.locked.keys =
      (((readLines text).filterMap Line.entry?).map (·.1)).eraseDups := by
  have hAll : ∀ cs : List Coordinate, cs.removeAll [] = cs := fun cs =>
    List.filter_eq_self.2 fun _ _ => rfl
  rw [locked_parse, LockTable.keys_addEntries, LockTable.keys_empty, List.nil_append, hAll]

/-- The entries that are read, by the left sides of their lines. Comparing the
fields instead of the coordinates says it without the reader: they are the pieces
between the colons. -/
theorem fields_entries_map_read (lines : List Text) :
    ((lines.map Line.read).filterMap Line.entry?).map (·.1.fields) =
      (lines.filter fun line => Line.Kind.entry.Matches line).map fun line =>
        (Line.left line).splitOn (char ':') := by
  induction lines with
  | nil => rfl
  | cons line rest ih =>
    rw [List.map_cons, List.filter_cons, List.filterMap_cons]
    by_cases hKind : Line.Kind.entry.Matches line
    · obtain ⟨c, hc⟩ := Line.exists_isEntryOf hKind
      rw [if_pos (decide_eq_true hKind), Line.read_entry hc, Line.entry?, List.map_cons,
        List.map_cons, ih, hc.2]
    · -- a line of another kind is read as something else
      have hNone : Line.entry? (Line.read line) = none := by
        cases hRead : Line.read line with
        | entry c s => exact absurd (Line.read_eq_entry_iff.1 hRead).1.1 hKind
        | _ => rfl
      rw [if_neg (by simpa using hKind), hNone, ih]

/-- A coordinate is in the table if the text has an entry of it, even one that
lists no name. Such an entry is read, and left out only when the lock file is
written again. -/
theorem mem_keys_parse_iff {c : Coordinate} :
    c ∈ (parse text).lock.locked.keys ↔ ∃ line ∈ linesOf text, Line.IsEntryOf c line := by
  constructor
  · intro h
    obtain ⟨line, hLine, s, hRead⟩ := exists_line_of_mem_keys_parse h
    exact ⟨line, hLine, (Line.read_eq_entry_iff.1 hRead).1⟩
  · rintro ⟨line, hLine, hEntry⟩
    have hRead : .entry c (Line.namesOf (Line.right line)) ∈ readLines text :=
      List.mem_map.2 ⟨line, hLine, Line.read_entry hEntry⟩
    rw [keys_parse, List.mem_eraseDups, List.mem_map]
    exact ⟨(c, Line.namesOf (Line.right line)), mem_entries_readLines.2 hRead, rfl⟩

/-- The coordinates, given by their fields, in the order in which entries first have them. -/
theorem fields_keys_parse (text : Text) :
    (parse text).lock.locked.keys.map Coordinate.fields =
      (((linesOf text).filter fun line => Line.Kind.entry.Matches line).map fun line =>
        (Line.left line).splitOn (char ':')).eraseDups := by
  have hFields : ∀ c d : Coordinate, c.fields = d.fields → c = d := by
    rintro ⟨g, a, v⟩ ⟨g', a', v'⟩ h
    simpa [Coordinate.fields] using h
  rw [keys_parse, ← map_eraseDups hFields, List.map_map, ← fields_entries_map_read]
  rfl

/-- The dropped lines, each with its number in the text and the reason. -/
theorem droppedLines_eq (text : Text) :
    droppedLines text =
      (((linesOf text).zipIdx 1).filter fun l => Line.Kind.dropped.Matches l.1).map fun l =>
        (l.2, if l.1.count (char '=') = 1 then .coordinate else .separator) := by
  rw [droppedLines]
  induction (linesOf text).zipIdx 1 with
  | nil => rfl
  | cons l rest ih =>
    obtain ⟨line, number⟩ := l
    rw [List.filterMap_cons, ih, List.filter_cons]
    by_cases hKind : Line.Kind.dropped.Matches line
    · simp [Line.dropReason?_read, hKind]
    · simp [Line.dropReason?_read, hKind]

/--
**Reading accounts for every line.** Each line of a text is of exactly one kind. The
comments are the comment lines in their order; a name has nothing to lock iff an empty
line lists it; a coordinate is in the table iff an entry is about it, and a name locks it
iff such an entry lists the name; the coordinates stand in the order in which the entries
first have them. Each dropped line is reported, in order, by its number and by whether
it has other than one equals sign.
-/
theorem parse_exact (text : Text) :
    (∀ line ∈ linesOf text, ∃! k : Line.Kind, k.Matches line) ∧
    (parse text).comments = (linesOf text).filter (fun line => Line.Kind.comment.Matches line) ∧
    (∀ n, n ∈ (parse text).lock.empty ↔
      ∃ line ∈ linesOf text, Line.Kind.empty.Matches line ∧ Line.Lists line n) ∧
    (∀ c, c ∈ (parse text).lock.locked.keys ↔ ∃ line ∈ linesOf text, Line.IsEntryOf c line) ∧
    (∀ c n, n ∈ (parse text).lock.locked.get c ↔
      ∃ line ∈ linesOf text, Line.IsEntryOf c line ∧ Line.Lists line n) ∧
    (parse text).lock.locked.keys.map Coordinate.fields =
      (((linesOf text).filter fun line => Line.Kind.entry.Matches line).map fun line =>
        (Line.left line).splitOn (char ':')).eraseDups ∧
    dropEvents text =
      (((linesOf text).zipIdx 1).filter fun l => Line.Kind.dropped.Matches l.1).map fun l =>
        .lineDropped l.2 (if l.1.count (char '=') = 1 then .coordinate else .separator) := by
  refine ⟨fun line _ => Line.existsUnique_matches line, comments_parse_eq_matches text,
    fun n => mem_empty_parse_iff_lists, fun c => mem_keys_parse_iff,
    fun c n => mem_get_parse_iff_lists, fields_keys_parse text, ?_⟩
  -- events are made from the dropped lines one by one
  rw [dropEvents, droppedLines_eq, List.map_map]
  rfl

/-- A comment with an equals sign, a blank, `empty` with a space, a coordinate
without names, and a coordinate that occurs again. -/
example :
    (parse "# a=b\n\t\nempty =x\ng:a:1=\ng:b:1=main\ng:a:1= test ,\r".text).lock.locked.entries =
        [(⟨"g".text, "a".text, "1".text⟩, NameSet.singleton "test".text),
          (⟨"g".text, "b".text, "1".text⟩, NameSet.singleton "main".text)] ∧
      droppedLines "# a=b\n\t\nempty =x\ng:a:1=\ng:b:1=main\ng:a:1= test ,\r".text =
        [(3, .coordinate)] := by
  decide

end LockFile

end Lockstep
