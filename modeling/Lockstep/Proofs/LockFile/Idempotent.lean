import Lockstep.Proofs.LockFile.Unchanged
import Lockstep.Proofs.Text.Utf8

/-!
# Lockstep — updating twice

The text that an update writes is canonical and in step with the project, so that
the next update changes nothing (`update_of_update_eq_some`). The one thing that
can spoil this is a comment which still ends in a carriage return after its line
has been read; in a text without carriage returns there is none.

* `written_reconcile_written` — what is written for a reconciled lock file is a
  fixed point, if its comments are read back as they are.
* `update_again_eq_none_iff`  — a second update changes nothing iff no comment of the
  first text stands before two carriage returns.
* `not_mem_written_reconcile` — an update brings no other letters into a text than those of
  the project; so it has bytes again if they have (`isEncodable_written_reconcile`).
-/

namespace Lockstep

/-- A project that brings nothing into a lock file that cannot be encoded. -/
def Project.IsEncodable (p : Project) : Prop :=
  ∀ conf ∈ p.configurations, ∀ d ∈ conf.resolved, Utf8.IsEncodable d.text

namespace LockFile

variable {p : Project} {siblings : List Sibling} {text : Text}

-- ---------------------------------------------------------------------------
-- What has been written
-- ---------------------------------------------------------------------------

/-- The text that is written ends in a line feed if and only if the one that it
replaces does. -/
theorem getLast?_written_iff {f : LockFile} (hNewline : char '\n' ∉ emptyLine f.lock.empty.toList)
    {replaced : Text} : (f.written replaced).getLast? = some (char '\n') ↔ replaced.getLast? = some (char '\n') := by
  by_cases hEnd : replaced.getLast? = some (char '\n')
  · rw [written, if_pos hEnd]
    simp [hEnd]
  · rw [written, if_neg hEnd]
    exact iff_of_false (getLast?_joinWith_writtenLines hNewline) hEnd

/-- A lock file is written into a text that was written before as into the text
replaced there. -/
theorem written_written (g : LockFile) {f : LockFile}
    (hNewline : ∀ line ∈ f.writtenLines, char '\n' ∉ line) (replaced : Text) :
    g.written (f.written replaced) = g.written replaced :=
  g.written_eq_of_getLast?_iff (getLast?_written_iff (hNewline _ f.emptyLine_mem_writtenLines))

/-- A text that is written is never blank: it has the line of the empty names at least. -/
theorem isAllBlank_written (f : LockFile) (replaced : Text) :
    (f.written replaced).isAllBlank = false := by
  have hBody : char '=' ∈ Text.joinWith [char '\n'] f.writtenLines :=
    Text.mem_joinWith_of_mem f.emptyLine_mem_writtenLines (by simp [emptyLine])
  have hMem : char '=' ∈ f.written replaced := by
    rw [written]
    split
    · exact List.mem_append_left _ hBody
    · exact hBody
  exact Line.isAllBlank_eq_false hMem (by decide)

/-- No line that is written after an update holds a line feed, if the dependencies
of the project hold none. The names that are written were read from lines. -/
theorem newline_not_mem_writtenLines_reconcile (hp : p.IsPlain) :
    ∀ line ∈ ((parse text).reconcile p siblings).writtenLines, char '\n' ∉ line := by
  have hComments : ∀ c ∈ ((parse text).reconcile p siblings).comments, char '\n' ∉ c :=
    fun c hc => (marked_of_mem_comments_parse hc).2
  exact fun line => newline_not_mem_writtenLines hComments (isPlain_reconcile_parse text hp)

/-- The comments that an update writes are read back as they are, if none ends in a carriage return.
-/
theorem isCommentLine_reconcile_parse
    (hReturn : ∀ c ∈ (parse text).comments, c.getLast? ≠ some (char '\r')) :
    ∀ c ∈ ((parse text).reconcile p siblings).comments, IsCommentLine c := by
  intro c hc
  obtain ⟨hMark, hNewline⟩ := marked_of_mem_comments_parse hc
  exact ⟨hMark, hNewline, hReturn c hc⟩

/-- What is read after an update: the same comments, and the reconciled lock. -/
theorem parse_written_reconcile (hReturn : ∀ c ∈ (parse text).comments, c.getLast? ≠ some (char '\r'))
    (hp : p.IsPlain) :
    parse (((parse text).reconcile p siblings).written text) =
      ⟨(parse text).comments, ((parse text).lock.reconcile p siblings).tidy⟩ :=
  parse_written_eq (isCommentLine_reconcile_parse hReturn) (isPlain_reconcile_parse text hp) text

/-- What has been written for a reconciled lock file is written again for it. The
lock that is read back is in step with the project, so that reconciling it once more
changes nothing. -/
theorem written_reconcile_written {new : Text}
    (hReturn : ∀ c ∈ (parse text).comments, c.getLast? ≠ some (char '\r')) (hp : p.IsPlain)
    (hNew : new = ((parse text).reconcile p siblings).written text) :
    ((parse new).reconcile p siblings).written new = new := by
  have hNewline : ∀ line ∈ ((parse text).reconcile p siblings).writtenLines, char '\n' ∉ line :=
    newline_not_mem_writtenLines_reconcile hp
  rw [written_reconcile_eq_self_iff hp]
  constructor
  · rw [hNew]
    exact isCanonical_iff.2 ⟨_, isCommentLine_reconcile_parse hReturn,
      isPlain_reconcile_parse text hp, written_written _ hNewline text⟩
  · rw [hNew, parse_written_reconcile hReturn hp]
    exact (Lock.inStep_reconcile (parse text).lock p siblings).congr
      (fun c => (Lock.get_tidy _ c).symm) rfl

-- ---------------------------------------------------------------------------
-- The second update
-- ---------------------------------------------------------------------------

/-- The text that an update reports is the one that is written for the reconciled
lock file. Only a text that is not blank and differs from it is reported. -/
theorem eq_written_of_update_eq_some {new : Text} (h : update text p siblings = .ok (some new)) :
    new = ((parse text).reconcile p siblings).written text := by
  cases hBlank : text.isAllBlank with
  | true =>
    rw [update, if_pos hBlank] at h
    exact absurd (Except.ok.inj h) (by simp)
  | false =>
    rw [update_eq hBlank] at h
    have hSome := Except.ok.inj h
    split at hSome
    · exact absurd hSome (by simp)
    · exact (Option.some.inj hSome).symm

/-- An update that reports no change would write the text as it is. -/
theorem written_eq_self_of_update_eq_none (hBlank : text.isAllBlank = false)
    (h : update text p siblings = .ok none) :
    ((parse text).reconcile p siblings).written text = text := by
  rw [update_eq hBlank] at h
  have hNone := Except.ok.inj h
  split at hNone
  · assumption
  · exact absurd hNone (by simp)

/-- After an update the next one changes nothing, if no comment that was read ends
in a carriage return. -/
theorem update_of_update_eq_some {new : Text}
    (hReturn : ∀ c ∈ (parse text).comments, c.getLast? ≠ some (char '\r')) (hp : p.IsPlain)
    (h : update text p siblings = .ok (some new)) : update new p siblings = .ok none := by
  have hNew := eq_written_of_update_eq_some h
  have hBlank : new.isAllBlank = false := by
    rw [hNew]
    exact isAllBlank_written _ _
  rw [update_eq hBlank, if_pos (written_reconcile_written hReturn hp hNew)]

theorem getLast?_of_mem_comments_parse (h : char '\r' ∉ text) :
    ∀ c ∈ (parse text).comments, c.getLast? ≠ some (char '\r') := by
  intro c hc hLast
  exact h (mem_of_mem_line (mem_comments_parse.1 hc).1 (List.mem_of_getLast? hLast))

-- ---------------------------------------------------------------------------
-- Comments that keep a carriage return
-- ---------------------------------------------------------------------------

/-- A comment of the text that was read ends in a carriage return iff its line ends
in two. The first one is taken off when the line is read, as the end of a line of
two characters. -/
theorem no_return_comments_parse_iff :
    (∀ c ∈ (parse text).comments, c.getLast? ≠ some (char '\r')) ↔
      ∀ line ∈ text.splitOn (char '\n'), "# ".text <+: line → ¬ [char '\r', char '\r'] <:+ line := by
  constructor
  · intro h line hLine hMark hReturns
    have hRead : Text.dropLastChar (char '\r') line ∈ linesOf text := List.mem_map_of_mem hLine
    have hComment := mem_comments_parse.2 ⟨hRead, commentMark_prefix_dropReturn hMark⟩
    exact h _ hComment (Text.getLast?_dropLastChar_iff.2 hReturns)
  · intro h c hc hLast
    obtain ⟨hRead, hMark⟩ := mem_comments_parse.1 hc
    obtain ⟨line, hLine, rfl⟩ := List.mem_map.1 hRead
    have hPrefix : Text.dropLastChar (char '\r') line <+: line := Text.dropLastChar_prefix_self (char '\r') line
    exact h line hLine (hMark.trans hPrefix) (Text.getLast?_dropLastChar_iff.1 hLast)

/-- No line of a canonical text that starts as comments do ends in a
carriage return. The grammar says so of comments, and no other line of such
a text starts so. -/
theorem no_return_of_isCanonical (h : IsCanonical text) {line : Text}
    (hLine : line ∈ text.splitOn (char '\n')) (hMark : "# ".text <+: line) :
    line.getLast? ≠ some (char '\r') := by
  obtain ⟨l, hl, hLines⟩ := h
  have hne : line ≠ [] := by
    rintro rfl
    exact absurd hMark (by decide)
  have hMem : line ∈ l.lines := by
    rcases hLines with hLines | hLines
    · exact hLines ▸ hLine
    · rw [hLines, List.mem_append, List.mem_singleton] at hLine
      exact hLine.resolve_right hne
  simp only [Layout.lines, List.mem_append, List.mem_map, List.mem_singleton] at hMem
  -- a comment by the grammar, the empty line, an entry, or the last line, of which only the first
  -- starts so
  rcases hMem with ((hComment | hGap) | ⟨e, he, rfl⟩) | rfl
  · exact (hl.comments line hComment).2
  · split at hGap
    · exact absurd (List.mem_singleton.1 hGap) hne
    · exact absurd hGap List.not_mem_nil
  · exact absurd hMark (hl.entries e he).no_comment
  · have hHash : char '#' = char 'e' := (List.cons_prefix_cons.1 hMark).1
    exact absurd hHash (by decide)

/-- The comments that were read are lines of what an update writes. -/
theorem mem_splitOn_written_reconcile (hp : p.IsPlain) {c : Text} (hc : c ∈ (parse text).comments) :
    c ∈ (((parse text).reconcile p siblings).written text).splitOn (char '\n') := by
  rw [splitOn_written (newline_not_mem_writtenLines_reconcile hp)]
  have hLine : c ∈ ((parse text).reconcile p siblings).writtenLines := by
    rw [writtenLines, List.append_assoc, List.append_assoc]
    exact List.mem_append_left _ hc
  exact List.mem_append_left _ hLine

/--
**A second update.** After an update that changed the text, the next one changes
nothing iff no comment line of the text ends in two carriage returns. Of these, the
first update takes one away and the second the other.
-/
theorem update_again_eq_none_iff (hp : p.IsPlain) {new : Text}
    (h : update text p siblings = .ok (some new)) :
    update new p siblings = .ok none ↔
      ∀ line ∈ text.splitOn (char '\n'), "# ".text <+: line → ¬ [char '\r', char '\r'] <:+ line := by
  rw [← no_return_comments_parse_iff]
  constructor
  · intro hAgain c hc
    have hNew := eq_written_of_update_eq_some h
    have hFixed : ((parse new).reconcile p siblings).written new = new :=
      written_eq_self_of_update_eq_none (hNew ▸ isAllBlank_written _ _) hAgain
    -- a text that is left alone is canonical, and has each comment on a line without a return
    have hCanonical : IsCanonical new := (isCanonical_and_inStep_of_written hp hFixed).1
    have hLine : c ∈ new.splitOn (char '\n') := by
      rw [hNew]
      exact mem_splitOn_written_reconcile hp hc
    exact no_return_of_isCanonical hCanonical hLine (marked_of_mem_comments_parse hc).1
  · intro hReturn
    exact update_of_update_eq_some hReturn hp h

private def bumped : Project where
  name := "app".text
  configurations := [⟨"main".text, true, [⟨"org".text, "a".text, "2".text⟩]⟩]

private def bumpedText : Text := "# kept\n\norg:a:2=main\nempty=\n".text

theorem update_again_eq_none_bumped :
    bumped.IsPlain ∧
    update "# kept\r\norg:a:1=main\r\nempty=\r\n".text bumped [] = .ok (some bumpedText) ∧
    (update bumpedText bumped [] = .ok none ↔
      ∀ line ∈ "# kept\r\norg:a:1=main\r\nempty=\r\n".text.splitOn (char '\n'),
        "# ".text <+: line → ¬ [char '\r', char '\r'] <:+ line) ∧
    update bumpedText bumped [] = .ok none :=
  have hPlain : bumped.IsPlain := by decide
  have hUpdate : update "# kept\r\norg:a:1=main\r\nempty=\r\n".text bumped [] =
      .ok (some bumpedText) := by rfl
  ⟨hPlain, hUpdate, update_again_eq_none_iff hPlain hUpdate, by rfl⟩

/-- A comment before two carriage returns is changed twice. -/
theorem update_twice_of_two_returns :
    bumped.IsPlain ∧
    (∀ conf ∈ bumped.configurations, ∀ d ∈ conf.resolved, char '\r' ∉ d.text) ∧
    update "# kept\r\r\nempty=main\n".text bumped [] =
      .ok (some "# kept\r\n\norg:a:2=main\nempty=\n".text) ∧
    update "# kept\r\n\norg:a:2=main\nempty=\n".text bumped [] = .ok (some bumpedText) :=
  ⟨by decide, by decide, by rfl, by rfl⟩

-- ---------------------------------------------------------------------------
-- The letters of a text
-- ---------------------------------------------------------------------------

/-- A letter that is in no line and is no line feed is not in the text. -/
theorem not_mem_written {f : LockFile} {x : Letter} (hx : x ≠ char '\n')
    (hLines : ∀ line ∈ f.writtenLines, x ∉ line) (replaced : Text) : x ∉ f.written replaced := by
  have hBody : x ∉ Text.joinWith [char '\n'] f.writtenLines := by
    intro hMem
    rcases Text.mem_joinWith hMem with heq | ⟨line, hLine, hxl⟩
    · exact hx heq
    · exact hLines line hLine hxl
  rw [written]
  split
  · rw [List.mem_append, List.mem_singleton, not_or]
    exact ⟨hBody, hx⟩
  · exact hBody

/-- A letter of what is written, unless it has a meaning there, comes from the text or from a
dependency of the project; the names of its configurations are written only where the text has them.
-/
theorem not_mem_written_reconcile {x : Letter} (hLineEnd : x ≠ char '\n') (hMark : x ∉ ",=empty".text)
    (h : x ∉ text) (hp : ∀ conf ∈ p.configurations, ∀ d ∈ conf.resolved, x ∉ d.text) :
    x ∉ ((parse text).reconcile p siblings).written text := by
  refine not_mem_written hLineEnd (fun line hLine => ?_) text
  have hKeys : ∀ c ∈ ((parse text).reconcile p siblings).lock.locked.keys, x ∉ c.text :=
    Lock.forall_keys_reconcile (fun c hc hx => h (mem_of_mem_key hc hx)) hp
  refine not_mem_of_mem_writtenLines hMark (fun c hc => ?_) hKeys (fun n hn => ?_) hLine
  · exact fun hx => h (mem_of_mem_line (mem_comments_parse.1 hc).1 hx)
  · rw [reconcile, Lock.tracked_reconcile] at hn
    exact fun hx => h (mem_of_mem_tracked hn hx)

/-- An update of a text that has bytes gives a text that has bytes, if the dependencies of the
project bring no half of a surrogate pair. -/
theorem isEncodable_written_reconcile (h : Utf8.IsEncodable text) (hp : p.IsEncodable) :
    Utf8.IsEncodable (((parse text).reconcile p siblings).written text) := by
  rw [Utf8.isEncodable_iff] at h ⊢
  intro c hc
  cases c with
  | char c => rfl
  | half n =>
    refine absurd hc (not_mem_written_reconcile (by simp) (by simp [String.text]) ?_ ?_)
    · exact fun hMem => absurd (h _ hMem) (by simp [Letter.isHalf])
    · exact fun conf hConf d hd hMem =>
        absurd (Utf8.isEncodable_iff.1 (hp conf hConf d hd) _ hMem) (by simp [Letter.isHalf])

end LockFile

end Lockstep
