import Lockstep.Proofs.Lock.Reconcile
import Lockstep.Proofs.LockFile.Plain

/-!
# Lockstep — locks in step with a project

A lock is in step with a project if it records about each name that the project
resolves what the project says (`InStep`).

* `inStep_iff`        — reconciling leaves the sets of such a lock as they are, and
  those of no other.
* `inStep_reconcile`  — a reconciled lock is in step.
* `IsPlain.reconcile` — a reconciled lock can be written if the old one and the
  project's dependencies can.
-/

namespace Lockstep

/-- The dependencies of a project can be written and read back. -/
def Project.IsPlain (p : Project) : Prop :=
  ∀ conf ∈ p.configurations, ∀ d ∈ conf.resolved, d.IsPlain

instance (p : Project) : Decidable p.IsPlain :=
  inferInstanceAs (Decidable (∀ conf ∈ p.configurations, ∀ d ∈ conf.resolved, d.IsPlain))

namespace Lock

variable {p : Project} {siblings : List Sibling}

/-- For each name that is known and resolved, the lock records what the project says. -/
def InStep (l : Lock) (p : Project) (siblings : List Sibling) : Prop :=
  ∀ n ∈ l.tracked, p.CanResolve n →
    (∀ c, n ∈ l.locked.get c ↔ p.Locks siblings n c) ∧
      (n ∈ l.empty ↔ p.LocksNothing siblings n)

/-- Being in step is a matter of the sets of a lock, not of the order of its
coordinates. The names that a lock knows are determined by its sets. -/
theorem InStep.congr {l l' : Lock} (hGet : ∀ c, l.locked.get c = l'.locked.get c)
    (hEmpty : l.empty = l'.empty) (h : l.InStep p siblings) : l'.InStep p siblings := by
  intro n hTracked hCan
  have hOld : n ∈ l.tracked := by
    rw [mem_tracked] at hTracked ⊢
    simpa only [hGet, hEmpty] using hTracked
  obtain ⟨hLocks, hNothing⟩ := h n hOld hCan
  refine ⟨fun c => ?_, ?_⟩
  · rw [← hGet c]
    exact hLocks c
  · rw [← hEmpty]
    exact hNothing

/-- What a project can resolve locks something or nothing. A configuration of the
name depends on something that is no sibling, or else on siblings only. -/
theorem locks_or_locksNothing {n : Text} (h : p.CanResolve n) :
    (∃ c, p.Locks siblings n c) ∨ p.LocksNothing siblings n := by
  obtain ⟨conf, hConf, hRes, hName⟩ := h
  by_cases hAll : ∀ d ∈ conf.resolved, p.SiblingEdge siblings d
  · exact Or.inr ⟨conf, hConf, hRes, hName, hAll⟩
  · simp only [Classical.not_forall] at hAll
    obtain ⟨d, hd, hext⟩ := hAll
    exact Or.inl ⟨d, conf, hConf, hRes, hName, hd, hext⟩

/-- Reconciling neither forgets a name nor learns a new one. A name that is
recomputed is recorded again, since what the project resolves locks something
or nothing. -/
theorem tracked_reconcile (old : Lock) (p : Project) (siblings : List Sibling) :
    (old.reconcile p siblings).tracked = old.tracked := by
  apply NameSet.ext
  intro n
  rw [mem_tracked, mem_empty_reconcile]
  simp only [mem_get_reconcile]
  by_cases hRec : old.Recomputes p n
  · obtain ⟨hTracked, hCan⟩ := recomputes_iff.1 hRec
    simpa [hRec, hTracked, or_comm] using locks_or_locksNothing hCan
  · rw [mem_tracked]
    simp [hRec]

/-- A lock is in step if and only if reconciling leaves its sets as they are.
Nothing is said about the order of the coordinates, which reconciling may change. -/
theorem inStep_iff {l : Lock} :
    l.InStep p siblings ↔
      (∀ c, (l.reconcile p siblings).locked.get c = l.locked.get c) ∧
        (l.reconcile p siblings).empty = l.empty := by
  constructor
  · intro h
    refine ⟨fun c => NameSet.ext fun n => ?_, NameSet.ext fun n => ?_⟩
    · rw [mem_get_reconcile]
      -- a name that is not recomputed keeps what it had; of the others `h` speaks
      by_cases hRec : l.Recomputes p n
      · obtain ⟨hTracked, hCan⟩ := recomputes_iff.1 hRec
        simp [hRec, (h n hTracked hCan).1 c]
      · simp [hRec]
    · rw [mem_empty_reconcile]
      by_cases hRec : l.Recomputes p n
      · obtain ⟨hTracked, hCan⟩ := recomputes_iff.1 hRec
        simp [hRec, (h n hTracked hCan).2]
      · simp [hRec]
  · rintro ⟨hGet, hEmpty⟩ n hTracked hCan
    -- a name that is known and resolved is recomputed, and so has what the project says
    have hRec : l.Recomputes p n := recomputes_iff.2 ⟨hTracked, hCan⟩
    refine ⟨fun c => ?_, ?_⟩
    · rw [← hGet c, mem_get_reconcile]
      simp [hRec]
    · rw [← hEmpty, mem_empty_reconcile]
      simp [hRec]

/-- A reconciled lock is in step: it still knows the same names, and has what the
project says. -/
theorem inStep_reconcile (old : Lock) (p : Project) (siblings : List Sibling) :
    (old.reconcile p siblings).InStep p siblings := by
  intro n hTracked hCan
  rw [tracked_reconcile] at hTracked
  have hRec : old.Recomputes p n := recomputes_iff.2 ⟨hTracked, hCan⟩
  refine ⟨fun c => ?_, ?_⟩
  · rw [mem_get_reconcile]
    simp [hRec]
  · rw [mem_empty_reconcile]
    simp [hRec]

/-- The coordinates of a reconciled lock come from the old lock or from the project. -/
theorem mem_keys_reconcile {old : Lock} {c : Coordinate}
    (h : c ∈ (old.reconcile p siblings).locked.keys) :
    c ∈ old.locked.keys ∨ ∃ conf ∈ p.configurations, c ∈ conf.resolved := by
  have hEntry : (c, (old.reconcile p siblings).locked.get c) ∈
      (old.reconcile p siblings).locked.entries := LockTable.mem_entries_iff.2 ⟨h, rfl⟩
  obtain ⟨n, hn⟩ := NameSet.ne_empty_iff.1 (ne_empty_of_mem_entries_reconcile hEntry)
  rcases mem_get_reconcile.1 hn with ⟨-, hOld⟩ | ⟨-, conf, hConf, -, -, hDep, -⟩
  · exact Or.inl (LockTable.mem_keys_of_mem_get hOld)
  · exact Or.inr ⟨conf, hConf, hDep⟩

/-- What holds of the old coordinates and of the project's dependencies holds after
reconciling. -/
theorem forall_keys_reconcile {old : Lock} {P : Coordinate → Prop}
    (hOld : ∀ c ∈ old.locked.keys, P c) (hp : ∀ conf ∈ p.configurations, ∀ d ∈ conf.resolved, P d) :
    ∀ c ∈ (old.reconcile p siblings).locked.keys, P c := by
  intro c hc
  rcases mem_keys_reconcile hc with hKey | ⟨conf, hConf, hDep⟩
  · exact hOld c hKey
  · exact hp conf hConf c hDep

/-- A reconciled lock can be written and read back if the old one and what the
project depends on can. Its names need no condition of their own: they are names of
the old lock. -/
theorem IsPlain.reconcile {old : Lock} (h : old.IsPlain) (hp : p.IsPlain) :
    (old.reconcile p siblings).IsPlain where
  coordinates := forall_keys_reconcile h.coordinates hp
  names := by
    intro n hn
    rw [tracked_reconcile] at hn
    exact h.names n hn

end Lock

end Lockstep
