import Lockstep.Proofs.LockFile.ReadBack
import Lockstep.Proofs.Snapshot.Accepted

/-!
# Lockstep — the lines of accepted values

A snapshot is checked so that what it brings into a lock file can be read back. The
check goes through the characters of a value, and none that it lets pass changes
how a line is split. What it does not see is that a line may start as comments do.

* `IsToken.isName`, `Coordinate.IsAccepted.isPlain` — accepted names can be read back,
  and so can accepted coordinates but for this one.
* `readsAs_entryLine_iff` — the line of an accepted entry is read as this entry iff
  the group does not start as comments do; else it is read as a comment.
-/

namespace Lockstep

open Snapshot

/-- An accepted configuration name can be listed on a line: it is not empty, is
trimmed, and holds none of the signs at which a line is split. -/
theorem Snapshot.IsToken.isName {n : Text} (h : IsToken configurationSeparators n) : IsName n where
  ne_nil := h.ne_nil
  trimmed := h.trimmed
  no_equals := h.no_separator (char '=') (by decide)
  no_comma := h.no_separator (char ',') (by decide)
  no_newline := h.no_separator (char '\n') (by decide)

/-- No field of an accepted coordinate holds a sign at which its line is split. -/
theorem Coordinate.IsAccepted.isSeparated {c : Coordinate} (h : c.IsAccepted) : c.IsSeparated where
  no_colon := fun field hField => (h field hField).no_separator (char ':') (by decide)
  no_equals := fun field hField => (h field hField).no_separator (char '=') (by decide)
  no_newline := fun field hField => (h field hField).no_separator (char '\n') (by decide)

/-- An accepted coordinate can be written and read back, if its group does not start
as comments do. The check of the snapshot goes through single letters, and sees no
two of them together. -/
theorem Coordinate.IsAccepted.isPlain {c : Coordinate} (h : c.IsAccepted)
    (hMark : ¬ "# ".text <+: c.group) : c.IsPlain :=
  Coordinate.isPlain_iff.2 ⟨h.isSeparated, hMark⟩

namespace LockFile

-- ---------------------------------------------------------------------------
-- Texts of one line
-- ---------------------------------------------------------------------------

variable {line : Text}

/-- A text without a line feed is one line, but for a carriage return at its end. -/
theorem linesOf_of_newline_not_mem (h : char '\n' ∉ line) :
    linesOf line = [Text.dropLastChar (char '\r') line] := by
  rw [linesOf, Text.splitOn_of_not_mem h, List.map_singleton]

theorem parse_of_newline_not_mem (h : char '\n' ∉ line) :
    parse line = addLine {} (Line.read (Text.dropLastChar (char '\r') line)) := by
  rw [parse, linesOf_of_newline_not_mem h]
  rfl

/-- If this line is not dropped, then no line of the text is. -/
theorem droppedLines_of_newline_not_mem (h : char '\n' ∉ line)
    (hKept : (Line.read (Text.dropLastChar (char '\r') line)).dropReason? = none) :
    droppedLines line = [] := by
  rw [droppedLines, linesOf_of_newline_not_mem h]
  simp [hKept]

-- ---------------------------------------------------------------------------
-- The line of an entry
-- ---------------------------------------------------------------------------

/-- A text is read as one entry, and as nothing else. -/
structure ReadsAs (text : Text) (c : Coordinate) (names : NameSet) : Prop where
  comments : (parse text).comments = []
  locked : (parse text).lock.locked.entries = [(c, names)]
  empty : (parse text).lock.empty = ∅
  kept : droppedLines text = []

variable {c : Coordinate} {names : NameSet}

theorem newline_not_mem_entryText (hc : ∀ field ∈ c.fields, char '\n' ∉ field)
    (hNames : ∀ n ∈ names, IsName n) : char '\n' ∉ entryText (c, names) := by
  rw [entryText, List.mem_append, List.mem_cons, not_or, not_or]
  exact ⟨Coordinate.not_mem_text (by decide) hc, by decide,
    not_mem_joinNames (by decide) fun n hn => (hNames n hn).no_newline⟩

/-- The line of a plain entry is read as this entry, and as nothing else: there are
no comments in it, no names with nothing to lock, and no line is dropped. -/
theorem readsAs_entryText (hc : c.IsPlain) (hNames : ∀ n ∈ names, IsName n) :
    ReadsAs (entryText (c, names)) c names := by
  have hNewline := newline_not_mem_entryText hc.no_newline hNames
  have hRead : Line.read (Text.dropLastChar (char '\r') (entryText (c, names))) = .entry c names := by
    rw [entryText, dropReturn_sides hNames, Line.read_entryLine hc hNames]
  -- the text is this one line
  have hParse : parse (entryText (c, names)) =
      { lock := { locked := (∅ : LockTable).addEntries [(c, names)] } } := by
    rw [parse_of_newline_not_mem hNewline, hRead]
    rfl
  constructor
  · rw [hParse]
  · rw [hParse]
    exact LockTable.entries_addEntries (by simp)
  · rw [hParse]
  · exact droppedLines_of_newline_not_mem hNewline (by rw [hRead]; rfl)

/-- The line of an entry whose group starts as comments do is read as a comment. -/
theorem parse_entryText_of_commentMark (hc : ∀ field ∈ c.fields, char '\n' ∉ field)
    (hNames : ∀ n ∈ names, IsName n) (hMark : Line.commentMark <+: c.group) :
    parse (entryText (c, names)) = { comments := [entryText (c, names)] } := by
  have hLine : Line.commentMark <+: entryText (c, names) :=
    Coordinate.commentMark_prefix_text_iff.2 hMark
  rw [parse_of_newline_not_mem (newline_not_mem_entryText hc hNames), entryText,
    dropReturn_sides hNames, ← entryText, Line.read_comment hLine]
  rfl

/--
**Reading an accepted entry back.** An accepted coordinate and accepted names, of
which there is one at least, have a line. It is read as just this entry iff the group
does not start as comments do. If it does, the line is read as a comment, and both the
coordinate and the names are lost.
-/
theorem readsAs_entryLine_iff {place : List Segment} {v : Json.Value}
    (hc : Snapshot.dependency place v = .ok c)
    (hNames : ∀ n ∈ names, ∃ place v conf,
      Snapshot.configuration place v = .ok conf ∧ conf.name = n)
    (hne : names ≠ ∅) :
    ∃ line, entryLine? c names.toList = some line ∧
      (ReadsAs line c names ↔ ¬ "# ".text <+: c.group) ∧
      ("# ".text <+: c.group → parse line = { comments := [line] }) := by
  have hAccepted : c.IsAccepted := isAccepted_of_dependency hc
  have hName : ∀ n ∈ names, IsName n := by
    intro n hn
    obtain ⟨_, _, conf, hConf, rfl⟩ := hNames n hn
    exact (isAccepted_of_configuration hConf).name.isName
  have hNewline : ∀ field ∈ c.fields, char '\n' ∉ field :=
    fun field hField => (hAccepted field hField).no_separator (char '\n') (by decide)
  have hComment := parse_entryText_of_commentMark hNewline hName
  have hLine := entryLine?_eq c (fun n hn => (hName n hn).ne_nil) hne
  refine ⟨entryText (c, names), hLine, ⟨?_, ?_⟩, hComment⟩
  · -- read as a comment, the line would be one that an entry alone does not leave
    intro hReads hMark
    have hNone := hReads.comments
    rw [hComment hMark] at hNone
    exact absurd hNone (by simp)
  · intro hMark
    exact readsAs_entryText (hAccepted.isPlain hMark) hName

private def dependencyIn (group : String) : Json.Value :=
  .object [("group".text, .string group.text), ("artifact".text, .string " a ".text),
    ("version".text, .string "1".text)]

private def scopeNamed (name : String) : Json.Value := .object [("name".text, .string name.text)]

private def scopes : NameSet := NameSet.ofList ["main".text, "test".text]

private theorem accepted_scopes : ∀ n ∈ scopes, ∃ place v conf,
    Snapshot.configuration place v = .ok conf ∧ conf.name = n := by
  intro n hn
  have hCases : n = "main".text ∨ n = "test".text := by simpa [scopes] using hn
  rcases hCases with rfl | rfl
  · exact ⟨[], scopeNamed " main ", ⟨"main".text, true, []⟩, by rfl, rfl⟩
  · exact ⟨[], scopeNamed "test", ⟨"test".text, true, []⟩, by rfl, rfl⟩

theorem readsAs_entryLine_org :
    Snapshot.dependency [] (dependencyIn "org") = .ok ⟨"org".text, "a".text, "1".text⟩ ∧
    (∀ n ∈ scopes, ∃ place v conf, Snapshot.configuration place v = .ok conf ∧ conf.name = n) ∧
    ∃ line, entryLine? ⟨"org".text, "a".text, "1".text⟩ scopes.toList = some line ∧
      (ReadsAs line ⟨"org".text, "a".text, "1".text⟩ scopes ↔
        ¬ "# ".text <+: "org".text) ∧
      ("# ".text <+: "org".text → parse line = { comments := [line] }) :=
  have hc : Snapshot.dependency [] (dependencyIn "org") =
      .ok ⟨"org".text, "a".text, "1".text⟩ := by rfl
  ⟨hc, accepted_scopes, readsAs_entryLine_iff hc accepted_scopes (by decide)⟩

/-- An accepted entry whose line is read as a comment. -/
theorem not_readsAs_of_marked_group :
    Snapshot.dependency [] (dependencyIn "# x") = .ok ⟨"# x".text, "a".text, "1".text⟩ ∧
    (∀ n ∈ scopes, ∃ place v conf, Snapshot.configuration place v = .ok conf ∧ conf.name = n) ∧
    entryLine? ⟨"# x".text, "a".text, "1".text⟩ scopes.toList =
      some "# x:a:1=main,test".text ∧
    ¬ ReadsAs "# x:a:1=main,test".text ⟨"# x".text, "a".text, "1".text⟩ scopes := by
  refine ⟨by rfl, accepted_scopes, by rfl, fun hReads => ?_⟩
  have hNone := hReads.comments
  exact absurd hNone (by decide)

end LockFile

end Lockstep
