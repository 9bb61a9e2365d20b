import Lockstep.Proofs.LockFile.Unchanged
import Mathlib.Data.Multiset.ZeroCons

/-!
# Lockstep — inputs in another order

The order in which a text lists its entries, a project its configurations and a
configuration its dependencies is an accident of how they were made, and so is how
often they do. An update does not depend on it: what is written is decided by what
is recorded about each name, and all of that is a matter of membership.

* `SameLines`, `Project.Reorders` — texts and projects that differ in this way only.
* `SameLines.agreeOn`, `Project.Reorders.locks_iff` — they say the same about a name.
* `revise_reordered`  — they are updated into the same text.
-/

namespace Lockstep

-- ---------------------------------------------------------------------------
-- Projects in another order
-- ---------------------------------------------------------------------------

/-- The same configuration, but for the order and the number of its dependencies. -/
structure Configuration.Reorders (c c' : Configuration) : Prop where
  name : c.name = c'.name
  resolvable : c.resolvable = c'.resolvable
  resolved : ∀ d, d ∈ c.resolved ↔ d ∈ c'.resolved

/-- The same group and, in whatever order, the same configurations in this sense. -/
structure Project.Reorders (p q : Project) : Prop where
  group : p.group = q.group
  configurations : Multiset.Rel Configuration.Reorders p.configurations q.configurations

theorem Configuration.Reorders.symm {c c' : Configuration} (h : c.Reorders c') : c'.Reorders c :=
  ⟨h.name.symm, h.resolvable.symm, fun d => (h.resolved d).symm⟩

namespace Project

variable {p q : Project} {siblings siblings' : List Sibling} {n : Text}

theorem Reorders.symm (h : p.Reorders q) : q.Reorders p where
  group := h.group.symm
  configurations := by
    rw [← Multiset.rel_flip]
    exact h.configurations.mono fun _ _ _ _ hSame => hSame.symm

/-- Each configuration of a reordered project is one of the project, reordered itself. -/
theorem Reorders.exists_reorders (h : p.Reorders q) {conf : Configuration}
    (hConf : conf ∈ p.configurations) : ∃ conf' ∈ q.configurations, conf.Reorders conf' := by
  obtain ⟨conf', hConf', hSame⟩ :=
    Multiset.exists_mem_of_rel_of_mem h.configurations (Multiset.mem_coe.2 hConf)
  exact ⟨conf', Multiset.mem_coe.1 hConf', hSame⟩

/-- An edge to a sibling is a matter of the group and of which siblings there are. -/
theorem siblingEdge_iff_of_group_eq (hGroup : p.group = q.group)
    (hSiblings : ∀ s, s ∈ siblings ↔ s ∈ siblings') (d : Coordinate) :
    p.SiblingEdge siblings d ↔ q.SiblingEdge siblings' d := by
  rw [SiblingEdge, SiblingEdge, hGroup, hSiblings]

theorem CanResolve.of_reorders (hn : p.CanResolve n) (h : p.Reorders q) : q.CanResolve n := by
  obtain ⟨conf, hConf, hRes, rfl⟩ := hn
  obtain ⟨conf', hConf', hSame⟩ := h.exists_reorders hConf
  exact ⟨conf', hConf', hSame.resolvable ▸ hRes, hSame.name.symm⟩

theorem Locks.of_reorders {c : Coordinate} (hc : p.Locks siblings n c) (h : p.Reorders q)
    (hSiblings : ∀ s, s ∈ siblings ↔ s ∈ siblings') : q.Locks siblings' n c := by
  obtain ⟨conf, hConf, hRes, rfl, hDep, hEdge⟩ := hc
  obtain ⟨conf', hConf', hSame⟩ := h.exists_reorders hConf
  refine ⟨conf', hConf', hSame.resolvable ▸ hRes, hSame.name.symm, (hSame.resolved c).1 hDep, ?_⟩
  rw [← siblingEdge_iff_of_group_eq h.group hSiblings]
  exact hEdge

theorem LocksNothing.of_reorders (hn : p.LocksNothing siblings n) (h : p.Reorders q)
    (hSiblings : ∀ s, s ∈ siblings ↔ s ∈ siblings') : q.LocksNothing siblings' n := by
  obtain ⟨conf, hConf, hRes, rfl, hAll⟩ := hn
  obtain ⟨conf', hConf', hSame⟩ := h.exists_reorders hConf
  refine ⟨conf', hConf', hSame.resolvable ▸ hRes, hSame.name.symm, fun d hd => ?_⟩
  rw [← siblingEdge_iff_of_group_eq h.group hSiblings]
  exact hAll d ((hSame.resolved d).2 hd)

theorem Reorders.canResolve_iff (h : p.Reorders q) : p.CanResolve n ↔ q.CanResolve n :=
  ⟨fun hn => hn.of_reorders h, fun hn => hn.of_reorders h.symm⟩

theorem Reorders.locks_iff (h : p.Reorders q) (hSiblings : ∀ s, s ∈ siblings ↔ s ∈ siblings')
    (c : Coordinate) : p.Locks siblings n c ↔ q.Locks siblings' n c :=
  ⟨fun hc => hc.of_reorders h hSiblings,
    fun hc => hc.of_reorders h.symm fun s => (hSiblings s).symm⟩

theorem Reorders.locksNothing_iff (h : p.Reorders q)
    (hSiblings : ∀ s, s ∈ siblings ↔ s ∈ siblings') :
    p.LocksNothing siblings n ↔ q.LocksNothing siblings' n :=
  ⟨fun hn => hn.of_reorders h hSiblings,
    fun hn => hn.of_reorders h.symm fun s => (hSiblings s).symm⟩

end Project

namespace LockFile

-- ---------------------------------------------------------------------------
-- Texts in another order
-- ---------------------------------------------------------------------------

/-- Texts with the same comments in the same order, and the same other lines in
whatever order and number. -/
structure SameLines (t u : Text) : Prop where
  comments : (linesOf t).filter Line.isComment = (linesOf u).filter Line.isComment
  others : ∀ line, Line.isComment line = false → (line ∈ linesOf t ↔ line ∈ linesOf u)
  last : t.getLast? = some (char '\n') ↔ u.getLast? = some (char '\n')

variable {t u : Text}

/-- The comments are among the lines that both texts have, too. -/
theorem SameLines.mem_linesOf_iff (h : SameLines t u) (line : Text) :
    line ∈ linesOf t ↔ line ∈ linesOf u := by
  cases hMark : Line.isComment line with
  | false => exact h.others line hMark
  | true =>
    have hFilter : line ∈ (linesOf t).filter Line.isComment ↔
        line ∈ (linesOf u).filter Line.isComment := by
      rw [h.comments]
    simpa [List.mem_filter, hMark] using hFilter

/-- The comments, whose order counts, are read in the same order. -/
theorem SameLines.comments_parse_eq (h : SameLines t u) :
    (parse t).comments = (parse u).comments := by
  rw [comments_parse_eq_filter, comments_parse_eq_filter, h.comments]

/-- What is read from a text about a name is a matter of which lines it has. -/
theorem SameLines.agreeOn (h : SameLines t u) (n : Text) :
    (parse t).lock.AgreeOn (parse u).lock n := by
  constructor
  · intro c
    rw [mem_get_parse_iff, mem_get_parse_iff]
    simp only [h.mem_linesOf_iff]
  · rw [mem_empty_parse_iff, mem_empty_parse_iff]
    simp only [h.mem_linesOf_iff]

-- ---------------------------------------------------------------------------
-- Updates of both
-- ---------------------------------------------------------------------------

variable {p q : Project} {siblings siblings' : List Sibling}

/-- No field of a reconciled coordinate holds a colon if none of a dependency does:
what was read was split at its colons. -/
theorem no_colon_keys_reconcile (text : Text)
    (hColon : ∀ conf ∈ p.configurations, ∀ d ∈ conf.resolved, ∀ field ∈ d.fields, char ':' ∉ field) :
    ∀ c ∈ ((parse text).reconcile p siblings).lock.locked.keys,
      ∀ field ∈ c.fields, char ':' ∉ field :=
  Lock.forall_keys_reconcile (isPlain_parse text).no_colon hColon

/--
**Order does not matter.** Two texts with the same comments in order and the same
other lines, updated with projects of the same configurations and dependencies, have
the same result, whatever the order and the number of the lines, configurations,
dependencies and siblings. The fields of a dependency must not contain the colon that
is written between them.
-/
theorem revise_reordered (hBlank : t.isAllBlank = false) (hBlank' : u.isAllBlank = false)
    (hLines : SameLines t u) (hProject : p.Reorders q)
    (hSiblings : ∀ s, s ∈ siblings ↔ s ∈ siblings')
    (hColon : ∀ conf ∈ p.configurations, ∀ d ∈ conf.resolved, ∀ field ∈ d.fields, char ':' ∉ field) :
    ∃ r r', revise t p siblings = .ok r ∧ revise u q siblings' = .ok r' ∧ r.text = r'.text := by
  obtain ⟨r, hr, hText⟩ := exists_revise_eq_ok hBlank p siblings
  obtain ⟨r', hr', hText'⟩ := exists_revise_eq_ok hBlank' q siblings'
  have hColon' : ∀ conf ∈ q.configurations, ∀ d ∈ conf.resolved, ∀ field ∈ d.fields,
      char ':' ∉ field := by
    intro conf' hConf' d hd
    obtain ⟨conf, hConf, hSame⟩ := hProject.symm.exists_reorders hConf'
    exact hColon conf hConf d ((hSame.resolved d).1 hd)
  -- the two locks say the same name by name; their order is lost when they are written
  have hAgree : ∀ n, ((parse t).lock.reconcile p siblings).AgreeOn
      ((parse u).lock.reconcile q siblings') n := fun n =>
    Lock.reconcile_agreeOn (hLines.agreeOn n) hProject.canResolve_iff
      (hProject.locks_iff hSiblings) (hProject.locksNothing_iff hSiblings)
  have hComments : ((parse t).reconcile p siblings).comments =
      ((parse u).reconcile q siblings').comments := hLines.comments_parse_eq
  refine ⟨r, r', hr, hr', ?_⟩
  calc r.text
      = ((parse t).reconcile p siblings).written t := hText
    _ = ((parse u).reconcile q siblings').written t :=
        written_eq_of_agreeOn hComments (no_colon_keys_reconcile t hColon)
          (no_colon_keys_reconcile u hColon') hAgree t
    _ = ((parse u).reconcile q siblings').written u := written_eq_of_getLast?_iff _ hLines.last
    _ = r'.text := hText'.symm

private def listed : Text := "# kept\norg:b:1=main\r\norg:a:1=main\nempty=tools\n".text

private def listedAgain : Text :=
  "# kept\nempty=tools\norg:a:1=main\n\norg:b:1=main\norg:a:1=main\n".text

private def core : Coordinate := ⟨"org".text, "core".text, "1".text⟩

private def bumpedA : Coordinate := ⟨"org".text, "a".text, "2".text⟩

private def mainWith (resolved : List Coordinate) : Configuration := ⟨"main".text, true, resolved⟩

private def tools : Configuration := ⟨"tools".text, true, []⟩

private def consisting (configurations : List Configuration) : Project :=
  ⟨"app".text, some "org".text, configurations⟩

private theorem reorders_consisting :
    (consisting [mainWith [core, bumpedA], tools]).Reorders
      (consisting [tools, mainWith [bumpedA, core, bumpedA]]) where
  group := rfl
  configurations := by
    have hMain : (mainWith [core, bumpedA]).Reorders (mainWith [bumpedA, core, bumpedA]) :=
      ⟨rfl, rfl, fun d => by simp [mainWith]; tauto⟩
    have hTools : tools.Reorders tools := ⟨rfl, rfl, fun _ => Iff.rfl⟩
    have hPairs : Multiset.Rel Configuration.Reorders ↑[mainWith [core, bumpedA], tools]
        ↑[mainWith [bumpedA, core, bumpedA], tools] :=
      Multiset.Rel.cons hMain (Multiset.Rel.cons hTools Multiset.Rel.zero)
    -- the order of configurations does not count, only how they correspond
    have hSwap : Multiset.ofList [mainWith [bumpedA, core, bumpedA], tools] =
        Multiset.ofList [tools, mainWith [bumpedA, core, bumpedA]] :=
      Multiset.coe_eq_coe.2 (List.Perm.swap _ _ [])
    rw [hSwap] at hPairs
    exact hPairs

private theorem sameLines_listed : SameLines listed listedAgain := by
  refine ⟨by decide, fun line _ => ?_, by decide⟩
  have hSubset : linesOf listed ⊆ linesOf listedAgain := by decide
  have hSubset' : linesOf listedAgain ⊆ linesOf listed := by decide
  exact ⟨fun h => hSubset h, fun h => hSubset' h⟩

theorem revise_reordered_listed :
    listed.isAllBlank = false ∧ listedAgain.isAllBlank = false ∧ SameLines listed listedAgain ∧
    ∃ r r',
      revise listed (consisting [mainWith [core, bumpedA], tools])
        [⟨"org".text, "core".text⟩] = .ok r ∧
      revise listedAgain (consisting [tools, mainWith [bumpedA, core, bumpedA]])
        [⟨"org".text, "core".text⟩, ⟨"org".text, "core".text⟩] = .ok r' ∧
      r.text = r'.text :=
  have hBlank : listed.isAllBlank = false := by decide
  have hBlank' : listedAgain.isAllBlank = false := by decide
  ⟨hBlank, hBlank', sameLines_listed, revise_reordered hBlank hBlank' sameLines_listed
    reorders_consisting (by simp) (by decide)⟩

/-- A colon in a field: two coordinates have the same text, and stand in the order
they were met. -/
example :
    (revise "empty=main,test".text (consisting [mainWith [⟨"a:b".text, "c".text, []⟩],
      ⟨"test".text, true, [⟨"a".text, "b:c".text, []⟩]⟩]) []).map (·.text) ≠
    (revise "empty=main,test".text (consisting [
      ⟨"test".text, true, [⟨"a".text, "b:c".text, []⟩]⟩,
      mainWith [⟨"a:b".text, "c".text, []⟩]]) []).map (·.text) := by decide

end LockFile

end Lockstep
