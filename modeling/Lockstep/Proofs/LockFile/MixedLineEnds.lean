import Lockstep.Proofs.LockFile.LineEnds

/-!
# Lockstep — line ends of both kinds in one text

A text edited in different places may have some of its lines end in a line feed and
others in a carriage return and a line feed. Such a text is another one with a
carriage return before some of its line feeds, no matter before which
(`AddsReturns`). The texts that arise in this way are those with carriage returns
before line feeds only whose unified text is the first one (`addsReturns_iff`), so
that all of them are read alike and result in the same text
(`revise_addsReturns`).
-/

namespace Lockstep

-- ---------------------------------------------------------------------------
-- Adding carriage returns
-- ---------------------------------------------------------------------------

namespace Text

variable {t u : Text}

/-- The second text is the first with a carriage return before some of its line feeds. -/
inductive AddsReturns : Text → Text → Prop
  /-- At the end there is nothing to add. -/
  | nil : AddsReturns [] []
  /-- A character stays as it is, be it a line feed or not. -/
  | keep (c : Letter) {t u : Text} (rest : AddsReturns t u) : AddsReturns (c :: t) (c :: u)
  /-- A line feed gets a carriage return. -/
  | add {t u : Text} (rest : AddsReturns t u) : AddsReturns (char '\n' :: t) (char '\r' :: char '\n' :: u)

/-- The added carriage returns all stand before line feeds, and the first text has none of its own.
-/
theorem AddsReturns.returnsEndLines (h : AddsReturns t u) (hFree : char '\r' ∉ t) :
    u.returnsEndLines = true := by
  induction h with
  | nil => rfl
  | keep c rest ih =>
    rw [List.mem_cons, not_or] at hFree
    have hc : c ≠ char '\r' := Ne.symm hFree.1
    simp [Text.returnsEndLines, hc, ih hFree.2]
  | add rest ih =>
    rw [List.mem_cons, not_or] at hFree
    simp [Text.returnsEndLines, ih hFree.2]

/-- Unified line ends are those that the text had before. -/
theorem AddsReturns.unifyLineEnds (h : AddsReturns t u) (hFree : char '\r' ∉ t) :
    u.unifyLineEnds = t := by
  induction h with
  | nil => rfl
  | keep c rest ih =>
    rw [List.mem_cons, not_or] at hFree
    have hc : c ≠ char '\r' := Ne.symm hFree.1
    simp [Text.unifyLineEnds, hc, ih hFree.2]
  | add rest ih =>
    rw [List.mem_cons, not_or] at hFree
    rw [Text.unifyLineEnds, ih hFree.2]

/-- A text whose carriage returns stand before line feeds is its unified text with
some of them added. -/
theorem addsReturns_unifyLineEnds (h : u.returnsEndLines = true) : AddsReturns u.unifyLineEnds u := by
  fun_induction Text.unifyLineEnds u with
  | case1 => exact .nil
  | case2 rest ih =>
    have hRest : returnsEndLines rest = true := by simpa [Text.returnsEndLines] using h
    exact .add (ih hRest)
  | case3 c rest hOther ih =>
    obtain ⟨hc, hRest⟩ := ne_return_of_returnsEndLines h hOther
    rw [if_neg hc]
    exact .keep c (ih hRest)

/-- The texts that arise from one by adding carriage returns are told by their unified text. -/
theorem addsReturns_iff (hFree : char '\r' ∉ t) :
    AddsReturns t u ↔ u.returnsEndLines = true ∧ u.unifyLineEnds = t := by
  constructor
  · exact fun h => ⟨h.returnsEndLines hFree, h.unifyLineEnds hFree⟩
  · rintro ⟨hEnds, rfl⟩
    exact addsReturns_unifyLineEnds hEnds

end Text

-- ---------------------------------------------------------------------------
-- Lock files with such line ends
-- ---------------------------------------------------------------------------

namespace LockFile

variable {t u : Text}

/--
**Line ends do not matter.** A text that is not blank and has no carriage returns,
and the same text with one before some of its line feeds, hold the same lock file and
lose the same lines; an update of both reports the same and results in the same text,
whatever the project is.
-/
theorem revise_addsReturns (hFree : char '\r' ∉ t) (hBlank : t.isAllBlank = false)
    (h : Text.AddsReturns t u) (p : Project) (siblings : List Sibling) :
    parse u = parse t ∧ dropEvents u = dropEvents t ∧
    updateEvents u p siblings = updateEvents t p siblings ∧
    ∃ r r', revise t p siblings = .ok r ∧ revise u p siblings = .ok r' ∧ r'.text = r.text := by
  obtain ⟨hEnds, hUnified⟩ := (Text.addsReturns_iff hFree).1 h
  -- both texts have the same unified text, and with it the same lines
  have hLines : linesOf u = linesOf t := by rw [← linesOf_unifyLineEnds hEnds, hUnified]
  have hBlank' : u.isAllBlank = false := by rw [← Text.isAllBlank_unifyLineEnds, hUnified, hBlank]
  have hParse : parse u = parse t := by rw [parse, hLines, ← parse]
  have hDrops : dropEvents u = dropEvents t := by
    rw [dropEvents, droppedLines, hLines, ← droppedLines, ← dropEvents]
  have hRevised : revised u p siblings = revised t p siblings := by
    rw [← revised_unifyLineEnds hEnds, hUnified]
  obtain ⟨r, hr, hText⟩ := exists_revise_eq_ok hBlank p siblings
  obtain ⟨r', hr', hText'⟩ := exists_revise_eq_ok hBlank' p siblings
  refine ⟨hParse, hDrops, ?_, r, r', hr, hr', ?_⟩
  · rw [updateEvents, updateEvents, hBlank, hBlank', hDrops, hParse]
  · rw [hText', hRevised, ← hText]

private def mixed : Text := "# kept\r\n\norg:a:1=main\r\nno entry\nempty=\r\n".text

private def unmixed : Text := "# kept\n\norg:a:1=main\nno entry\nempty=\n".text

private def mixing : Project where
  name := "app".text
  configurations := [⟨"main".text, true, [⟨"org".text, "a".text, "2".text⟩]⟩]

theorem revise_addsReturns_mixed :
    char '\r' ∉ unmixed ∧ unmixed.isAllBlank = false ∧ Text.AddsReturns unmixed mixed ∧
    (parse mixed = parse unmixed ∧ dropEvents mixed = dropEvents unmixed ∧
      updateEvents mixed mixing [] = updateEvents unmixed mixing [] ∧
      ∃ r r', revise unmixed mixing [] = .ok r ∧ revise mixed mixing [] = .ok r' ∧
        r'.text = r.text) ∧
    revise mixed mixing [] = .ok ⟨"# kept\n\norg:a:2=main\nempty=\n".text, true⟩ :=
  have hFree : char '\r' ∉ unmixed := by decide
  have hBlank : unmixed.isAllBlank = false := by decide
  have hAdds : Text.AddsReturns unmixed mixed :=
    (Text.addsReturns_iff hFree).2 ⟨by decide, by decide⟩
  ⟨hFree, hBlank, hAdds, revise_addsReturns hFree hBlank hAdds mixing [], by rfl⟩

end LockFile

end Lockstep
