import Lockstep.Proofs.LockFile.Idempotent

/-!
# Lockstep — runs of updates

A run updates a text with one project after the other, each time the text that the
update before resulted in (`reviseAll`). What it leaves is described name by name:
the last project of the run that can resolve a name has the say about it, and a name
that none can resolve keeps what the first text records (`LeftBy`).

The invariant of a run is that its text is not blank and that its comments are read
back as they are written (`IsSteady`); each update keeps it.

* `leftBy_revised`, `LeftBy.trans` — one update, and one run after another.
* `exists_reviseAll_eq_ok`   — a run has a result, which it leaves in this sense.
* `written_parse_of_reviseAll` — the result of a run is written from what is read from it,
  so that two runs with the same say have the same result (`reviseAll_eq_of_lastResolver?_eq`).
-/

namespace Lockstep

-- ---------------------------------------------------------------------------
-- Who has the say about a name
-- ---------------------------------------------------------------------------

/-- The last of the projects that can resolve the name. -/
def lastResolver? (ps : List Project) (n : Text) : Option Project :=
  ps.reverse.find? fun p => decide (p.CanResolve n)

/-- Of two runs it is the second that has the say, if one of its projects can
resolve the name. -/
theorem lastResolver?_append (ps qs : List Project) (n : Text) :
    lastResolver? (ps ++ qs) n = (lastResolver? qs n).or (lastResolver? ps n) := by
  rw [lastResolver?, List.reverse_append, List.find?_append]
  rfl

theorem lastResolver?_singleton (p : Project) (n : Text) :
    lastResolver? [p] n = if p.CanResolve n then some p else none := by
  by_cases h : p.CanResolve n <;> simp [lastResolver?, h]

/-- The first project of a run has the say about a name if no later one can resolve it. -/
theorem lastResolver?_cons (p : Project) (rest : List Project) (n : Text) :
    lastResolver? (p :: rest) n =
      (lastResolver? rest n).or (if p.CanResolve n then some p else none) := by
  rw [← List.singleton_append, lastResolver?_append, lastResolver?_singleton]

/-- Projects that do not both resolve a name may change places. -/
theorem lastResolver?_swap {before after : List Project} {p q : Project} {n : Text}
    (h : ¬ (p.CanResolve n ∧ q.CanResolve n)) :
    lastResolver? (before ++ p :: q :: after) n = lastResolver? (before ++ q :: p :: after) n := by
  have hPair : lastResolver? (p :: q :: after) n = lastResolver? (q :: p :: after) n := by
    simp only [lastResolver?_cons, Option.or_assoc]
    by_cases hp : p.CanResolve n
    · have hq : ¬ q.CanResolve n := fun hq => h ⟨hp, hq⟩
      simp [hp, hq]
    · simp [hp]
  rw [lastResolver?_append, lastResolver?_append, hPair]

theorem lastResolver?_eq_none_iff {ps : List Project} {n : Text} :
    lastResolver? ps n = none ↔ ∀ p ∈ ps, ¬ p.CanResolve n := by
  simp [lastResolver?, List.find?_eq_none]

/-- A project has no say about a name that a later one resolves too. -/
theorem lastResolver?_absorb {before later : List Project} {p q : Project} {n : Text}
    (hq : q ∈ later) (h : p.CanResolve n → q.CanResolve n) :
    lastResolver? (before ++ p :: later) n = lastResolver? (before ++ later) n := by
  rw [lastResolver?_append, lastResolver?_append, lastResolver?_cons]
  cases hLater : lastResolver? later n with
  | some r => rfl
  | none =>
    have hp : ¬ p.CanResolve n := fun hp => lastResolver?_eq_none_iff.1 hLater q hq (h hp)
    rw [if_neg hp, Option.or_none]

namespace Lock

theorem agreeOn_tidy (l : Lock) (n : Text) : l.tidy.AgreeOn l n :=
  ⟨fun c => by rw [get_tidy], Iff.rfl⟩

end Lock

namespace LockFile

variable {p : Project} {ps qs : List Project} {siblings : List Sibling} {text : Text}

-- ---------------------------------------------------------------------------
-- One update of a run
-- ---------------------------------------------------------------------------

/-- The text is not blank, and its comments are read back as they are written. -/
structure IsSteady (text : Text) : Prop where
  not_blank : text.isAllBlank = false
  no_return : ∀ c ∈ (parse text).comments, c.getLast? ≠ some (char '\r')

/-- What is read after an update of a steady text: its comments, and the reconciled lock. -/
theorem IsSteady.parse_revised (h : IsSteady text) (hp : p.IsPlain) (siblings : List Sibling) :
    parse (revised text p siblings) =
      ⟨(parse text).comments, ((parse text).lock.reconcile p siblings).tidy⟩ :=
  parse_written_reconcile h.no_return hp

/-- The text after an update is steady again. This is the step of a run. -/
theorem IsSteady.revised (h : IsSteady text) (hp : p.IsPlain) :
    IsSteady (revised text p siblings) where
  not_blank := isAllBlank_written _ _
  no_return := by
    rw [h.parse_revised hp siblings]
    exact h.no_return

/-- What is left of a text after a run: its comments, its names, and about each name
what the last project says that resolves it. -/
structure LeftBy (siblings : List Sibling) (ps : List Project) (text final : Text) : Prop where
  comments : (parse final).comments = (parse text).comments
  tracked : (parse final).lock.tracked = (parse text).lock.tracked
  names : ∀ n ∈ (parse text).lock.tracked,
    match lastResolver? ps n with
    | some q => (parse final).lock.Follows q siblings n
    | none => (parse final).lock.AgreeOn (parse text).lock n

theorem LeftBy.refl (siblings : List Sibling) (text : Text) : LeftBy siblings [] text text where
  comments := rfl
  tracked := rfl
  names := fun n _ => Lock.AgreeOn.refl _ n

/-- One after the other, two runs leave of the text what both together do. -/
theorem LeftBy.trans {mid final : Text} (h : LeftBy siblings ps text mid)
    (h' : LeftBy siblings qs mid final) : LeftBy siblings (ps ++ qs) text final where
  comments := h'.comments.trans h.comments
  tracked := h'.tracked.trans h.tracked
  names := by
    intro n hn
    have hMid := h.names n hn
    have hFinal := h'.names n (h.tracked.symm ▸ hn)
    rw [lastResolver?_append]
    cases hq : lastResolver? qs n with
    | some q =>
      rw [hq] at hFinal
      exact hFinal
    | none =>
      -- nothing happens to the name in the second run, so that the first one has the say
      rw [hq] at hFinal
      rw [Option.none_or]
      cases hp : lastResolver? ps n with
      | some p =>
        rw [hp] at hMid
        exact hFinal.follows hMid
      | none =>
        rw [hp] at hMid
        exact hFinal.trans hMid

/-- One update leaves what its project says about the names that it can
resolve, and what was recorded about the others. It neither adds nor takes a
comment or a name. -/
theorem leftBy_revised (h : IsSteady text) (hp : p.IsPlain) :
    LeftBy siblings [p] text (revised text p siblings) := by
  have hRead := h.parse_revised hp siblings
  -- what is read after the update is the reconciled lock, but for its order
  have hTidy : ∀ n, (parse (revised text p siblings)).lock.AgreeOn
      ((parse text).lock.reconcile p siblings) n := by
    rw [hRead]
    exact Lock.agreeOn_tidy _
  constructor
  · rw [hRead]
  · calc (parse (revised text p siblings)).lock.tracked
        = ((parse text).lock.reconcile p siblings).tracked := Lock.tracked_eq_of_agreeOn hTidy
      _ = (parse text).lock.tracked := Lock.tracked_reconcile _ _ _
  · intro n hn
    rw [lastResolver?_singleton]
    by_cases hCan : p.CanResolve n
    · rw [if_pos hCan]
      exact (hTidy n).follows (Lock.follows_reconcile hn hCan)
    · rw [if_neg hCan]
      exact (hTidy n).trans (Lock.agreeOn_reconcile hCan)

-- ---------------------------------------------------------------------------
-- A whole run
-- ---------------------------------------------------------------------------

/-- The text after updates with one project after the other. -/
def reviseAll (siblings : List Sibling) : List Project → Text → Except UnwritableEntry Text
  | [], text => .ok text
  | p :: rest, text =>
    match revise text p siblings with
    | .error e => .error e
    | .ok r => reviseAll siblings rest r.text

/-- A run begins with the update by its first project, and goes on from the text
that results. -/
theorem reviseAll_cons (hBlank : text.isAllBlank = false) (rest : List Project) :
    reviseAll siblings (p :: rest) text = reviseAll siblings rest (revised text p siblings) := by
  obtain ⟨r, hr, hText⟩ := exists_revise_eq_ok hBlank p siblings
  rw [reviseAll, hr, ← hText]

/-- A run has a result, in which the last project that resolves a name has the
say about it. The induction is on the projects; after each update the text is
steady again. -/
theorem exists_reviseAll_eq_ok (h : IsSteady text) (hps : ∀ p ∈ ps, p.IsPlain)
    (siblings : List Sibling) :
    ∃ final, reviseAll siblings ps text = .ok final ∧ LeftBy siblings ps text final := by
  induction ps generalizing text with
  | nil => exact ⟨text, rfl, LeftBy.refl siblings text⟩
  | cons p rest ih =>
    have hp : p.IsPlain := hps p List.mem_cons_self
    obtain ⟨final, hRun, hLeft⟩ := ih (h.revised hp) fun q hq => hps q (List.mem_cons_of_mem p hq)
    refine ⟨final, ?_, (leftBy_revised h hp).trans hLeft⟩
    rw [reviseAll_cons h.not_blank]
    exact hRun

/-- The result of a run is written from what is read from it, in place of the
first text. Of this text only the line feed at the end is left, which each
update keeps. -/
theorem written_parse_of_reviseAll {rest : List Project} {final : Text} (h : IsSteady text)
    (hps : ∀ q ∈ p :: rest, q.IsPlain) (hRun : reviseAll siblings (p :: rest) text = .ok final) :
    (parse final).written text = final := by
  induction rest generalizing p text with
  | nil =>
    have hp : p.IsPlain := hps p List.mem_cons_self
    rw [reviseAll_cons h.not_blank, reviseAll, Except.ok.injEq] at hRun
    subst hRun
    have hPlain : ((parse text).lock.reconcile p siblings).IsPlain := isPlain_reconcile_parse text hp
    rw [h.parse_revised hp siblings, revised]
    apply written_congr
    · rfl
    · exact hPlain.entries_tidy
    · rfl
  | cons q rest ih =>
    have hp : p.IsPlain := hps p List.mem_cons_self
    rw [reviseAll_cons h.not_blank] at hRun
    -- the rest of the run begins with a text that was written, which counts as the first one
    have hLater := ih (h.revised hp) (fun r hr => hps r (List.mem_cons_of_mem p hr)) hRun
    rw [revised, written_written _ (newline_not_mem_writtenLines_reconcile hp)] at hLater
    exact hLater

/-- Two runs from one text leave locks that agree on each name about which the same
project has the say. This need not be the same project for all names, nor the last
one of the run. -/
theorem LeftBy.agreeOn {final final' : Text} (h : LeftBy siblings ps text final)
    (h' : LeftBy siblings qs text final')
    (hSay : ∀ n ∈ (parse text).lock.tracked, lastResolver? ps n = lastResolver? qs n) (n : Text) :
    (parse final).lock.AgreeOn (parse final').lock n := by
  -- about a name that the text does not know, neither run leaves anything
  by_cases hn : n ∈ (parse text).lock.tracked
  · have hLeft := h.names n hn
    have hLeft' := h'.names n hn
    rw [hSay n hn] at hLeft
    cases hq : lastResolver? qs n with
    | some q =>
      rw [hq] at hLeft hLeft'
      exact hLeft.agreeOn hLeft'
    | none =>
      rw [hq] at hLeft hLeft'
      exact hLeft.trans hLeft'.symm
  · apply Lock.agreeOn_of_not_mem_tracked
    · rw [h.tracked]
      exact hn
    · rw [h'.tracked]
      exact hn

/-- Runs in which the same projects have the say have the same result. They
need not have as many projects, but one each: a run without any does not even
write the text. -/
theorem reviseAll_eq_of_lastResolver?_eq (h : IsSteady text) (hps : ∀ p ∈ ps, p.IsPlain)
    (hqs : ∀ q ∈ qs, q.IsPlain) (hne : ps ≠ []) (hne' : qs ≠ [])
    (hSay : ∀ n ∈ (parse text).lock.tracked, lastResolver? ps n = lastResolver? qs n) :
    reviseAll siblings ps text = reviseAll siblings qs text := by
  obtain ⟨final, hRun, hLeft⟩ := exists_reviseAll_eq_ok h hps siblings
  obtain ⟨final', hRun', hLeft'⟩ := exists_reviseAll_eq_ok h hqs siblings
  obtain ⟨p, rest, rfl⟩ := List.exists_cons_of_ne_nil hne
  obtain ⟨q, rest', rfl⟩ := List.exists_cons_of_ne_nil hne'
  have hAgree := hLeft.agreeOn hLeft' hSay
  -- both results are written from locks that say the same, in place of the same text
  have hFinal : final = final' :=
    calc final
        = (parse final).written text := (written_parse_of_reviseAll h hps hRun).symm
      _ = (parse final').written text :=
          written_eq_of_agreeOn (hLeft.comments.trans hLeft'.comments.symm)
            (isPlain_parse final).no_colon (isPlain_parse final').no_colon hAgree text
      _ = final' := written_parse_of_reviseAll h hqs hRun'
  rw [hRun, hRun', hFinal]

/--
**The last resolver has the say.** From a text without carriage returns, a run of
updates has a result with the comments and names of the text, where each name has
what the last project says that resolves it, or what the text says if none does.
Two updates that recompute different names may change places in a run, and an
update is lost on a later one that recomputes all its names.
-/
theorem reviseAll_lastResolver (hBlank : text.isAllBlank = false) (hReturn : char '\r' ∉ text)
    (siblings : List Sibling) :
    (∀ ps : List Project, (∀ p ∈ ps, p.IsPlain) →
      ∃ final, reviseAll siblings ps text = .ok final ∧ LeftBy siblings ps text final) ∧
    (∀ (before after : List Project) (p q : Project),
      (∀ r ∈ before ++ p :: q :: after, r.IsPlain) →
      (∀ n, ¬ ((parse text).lock.Recomputes p n ∧ (parse text).lock.Recomputes q n)) →
      reviseAll siblings (before ++ p :: q :: after) text =
        reviseAll siblings (before ++ q :: p :: after) text) ∧
    (∀ (before later : List Project) (p q : Project),
      (∀ r ∈ before ++ p :: later, r.IsPlain) → q ∈ later →
      (∀ n, (parse text).lock.Recomputes p n → (parse text).lock.Recomputes q n) →
      reviseAll siblings (before ++ p :: later) text =
        reviseAll siblings (before ++ later) text) := by
  have hSteady : IsSteady text := ⟨hBlank, getLast?_of_mem_comments_parse hReturn⟩
  refine ⟨fun ps hps => exists_reviseAll_eq_ok hSteady hps siblings, ?_, ?_⟩
  · intro before after p q hPlain hDisjoint
    -- the same projects take part, in another order
    have hPlain' : ∀ r ∈ before ++ q :: p :: after, r.IsPlain := fun r hr =>
      hPlain r (((List.Perm.swap p q after).append_left before).mem_iff.1 hr)
    refine reviseAll_eq_of_lastResolver?_eq hSteady hPlain hPlain' (by simp) (by simp) ?_
    intro n hn
    exact lastResolver?_swap fun ⟨hp, hq⟩ =>
      hDisjoint n ⟨Lock.recomputes_iff.2 ⟨hn, hp⟩, Lock.recomputes_iff.2 ⟨hn, hq⟩⟩
  · intro before later p q hPlain hq hAll
    -- one project less takes part, which has no say
    have hPlain' : ∀ r ∈ before ++ later, r.IsPlain := fun r hr =>
      hPlain r (((List.sublist_cons_self p _).append_left before).subset hr)
    have hne : before ++ later ≠ [] := List.append_ne_nil_of_right_ne_nil _ (List.ne_nil_of_mem hq)
    refine reviseAll_eq_of_lastResolver?_eq hSteady hPlain hPlain' (by simp) hne ?_
    intro n hn
    exact lastResolver?_absorb hq fun hp =>
      (Lock.recomputes_iff.1 (hAll n (Lock.recomputes_iff.2 ⟨hn, hp⟩))).2

private def released : Text := "# kept\norg:a:1=main,test\nempty=tools\n".text

private def family : List Sibling := [⟨"org".text, "core".text⟩]

/-- A project that resolves one configuration, which depends on a sibling and on
one artifact. -/
private def resolving (name version : String) : Project where
  name := "app".text
  group := some "org".text
  configurations := [⟨name.text, true, [⟨"org".text, "core".text, "1".text⟩,
    ⟨"org".text, "a".text, version.text⟩]⟩]

private theorem eq_of_canResolve_resolving {name version : String} {n : Text}
    (h : (resolving name version).CanResolve n) : n = name.text := by
  obtain ⟨conf, hConf, -, rfl⟩ := h
  rw [List.mem_singleton.1 hConf]

theorem reviseAll_lastResolver_released :
    released.isAllBlank = false ∧ char '\r' ∉ released ∧
    (∃ final, reviseAll family [resolving "main" "2", resolving "test" "3"] released = .ok final ∧
      LeftBy family [resolving "main" "2", resolving "test" "3"] released final) ∧
    reviseAll family [resolving "main" "2", resolving "test" "3"] released =
      reviseAll family [resolving "test" "3", resolving "main" "2"] released ∧
    reviseAll family [resolving "main" "2", resolving "test" "3", resolving "main" "4"] released =
      reviseAll family [resolving "test" "3", resolving "main" "4"] released ∧
    reviseAll family [resolving "main" "2", resolving "test" "3"] released =
      .ok "# kept\n\norg:a:2=main\norg:a:3=test\nempty=tools\n".text := by
  have hBlank : released.isAllBlank = false := by decide
  have hReturn : char '\r' ∉ released := by decide
  obtain ⟨hRun, hSwap, hAbsorb⟩ := reviseAll_lastResolver hBlank hReturn family
  refine ⟨hBlank, hReturn, hRun _ (by decide), ?_, ?_, by rfl⟩
  · refine hSwap [] [] _ _ (by decide) fun n h => ?_
    have hMain := eq_of_canResolve_resolving h.1.2
    have hTest := eq_of_canResolve_resolving h.2.2
    exact absurd (hMain.symm.trans hTest) (by decide)
  · refine hAbsorb [] _ _ (resolving "main" "4") (by decide) (by decide) fun n h => ⟨h.1, ?_⟩
    rw [eq_of_canResolve_resolving h.2]
    decide

end LockFile

end Lockstep
