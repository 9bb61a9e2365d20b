import Lockstep.Proofs.Lock.InStep

/-!
# Lockstep — what locks record about one name

A lock records about a name the coordinates that the name locks, and whether it
has nothing to lock. Two locks are compared name by name (`AgreeOn`), and a lock is
compared in this way with a project (`Follows`).

* `follows_reconcile`, `agreeOn_reconcile` — one reconciliation: a name that the
  project resolves follows the project, and any other keeps what it had.
* `reconcile_agreeOn` — locks that agree, and projects that say the same, are
  reconciled into locks that agree.
-/

namespace Lockstep

namespace Lock

/-- Two locks record the same about a name. -/
structure AgreeOn (l l' : Lock) (n : Text) : Prop where
  locked : ∀ c, n ∈ l.locked.get c ↔ n ∈ l'.locked.get c
  empty : n ∈ l.empty ↔ n ∈ l'.empty

/-- A lock records about a name what a project says. -/
structure Follows (l : Lock) (p : Project) (siblings : List Sibling) (n : Text) : Prop where
  locked : ∀ c, n ∈ l.locked.get c ↔ p.Locks siblings n c
  empty : n ∈ l.empty ↔ p.LocksNothing siblings n

variable {l l' l'' : Lock} {n : Text} {p : Project} {siblings : List Sibling}

-- ---------------------------------------------------------------------------
-- Locks that agree
-- ---------------------------------------------------------------------------

theorem AgreeOn.refl (l : Lock) (n : Text) : l.AgreeOn l n := ⟨fun _ => Iff.rfl, Iff.rfl⟩

theorem AgreeOn.symm (h : l.AgreeOn l' n) : l'.AgreeOn l n :=
  ⟨fun c => (h.locked c).symm, h.empty.symm⟩

theorem AgreeOn.trans (h : l.AgreeOn l' n) (h' : l'.AgreeOn l'' n) : l.AgreeOn l'' n :=
  ⟨fun c => (h.locked c).trans (h'.locked c), h.empty.trans h'.empty⟩

/-- A lock that records the same about a name as one that follows the project
follows it, too. -/
theorem AgreeOn.follows (h : l.AgreeOn l' n) (h' : l'.Follows p siblings n) :
    l.Follows p siblings n :=
  ⟨fun c => (h.locked c).trans (h'.locked c), h.empty.trans h'.empty⟩

/-- What a project says about a name leaves no choice: two locks that follow it
record the same. -/
theorem Follows.agreeOn (h : l.Follows p siblings n) (h' : l'.Follows p siblings n) :
    l.AgreeOn l' n :=
  ⟨fun c => (h.locked c).trans (h'.locked c).symm, h.empty.trans h'.empty.symm⟩

/-- Locks that agree on a name both know it or both do not. -/
theorem AgreeOn.mem_tracked_iff (h : l.AgreeOn l' n) : n ∈ l.tracked ↔ n ∈ l'.tracked := by
  rw [mem_tracked, mem_tracked, h.empty]
  simp only [h.locked]

theorem tracked_eq_of_agreeOn (h : ∀ n, l.AgreeOn l' n) : l.tracked = l'.tracked :=
  NameSet.ext fun n => (h n).mem_tracked_iff

/-- Nothing is recorded about a name that a lock does not know, so that any two such
locks agree on it. -/
theorem agreeOn_of_not_mem_tracked (h : n ∉ l.tracked) (h' : n ∉ l'.tracked) : l.AgreeOn l' n := by
  simp only [mem_tracked, not_or, not_exists] at h h'
  exact ⟨fun c => iff_of_false (h.2 c) (h'.2 c), iff_of_false h.1 h'.1⟩

theorem get_eq_of_agreeOn (h : ∀ n, l.AgreeOn l' n) (c : Coordinate) :
    l.locked.get c = l'.locked.get c :=
  NameSet.ext fun n => (h n).locked c

theorem empty_eq_of_agreeOn (h : ∀ n, l.AgreeOn l' n) : l.empty = l'.empty :=
  NameSet.ext fun n => (h n).empty

-- ---------------------------------------------------------------------------
-- One reconciliation
-- ---------------------------------------------------------------------------

/-- A name that is known and that the project resolves is recorded as the project
says, whatever was recorded about it before. -/
theorem follows_reconcile {old : Lock} (hTracked : n ∈ old.tracked) (hCan : p.CanResolve n) :
    (old.reconcile p siblings).Follows p siblings n := by
  have hKnown : n ∈ (old.reconcile p siblings).tracked := by
    rw [tracked_reconcile]
    exact hTracked
  obtain ⟨hLocked, hEmpty⟩ := inStep_reconcile old p siblings n hKnown hCan
  exact ⟨hLocked, hEmpty⟩

/-- A name that the project does not resolve keeps what was recorded about it. -/
theorem agreeOn_reconcile {old : Lock} (hCan : ¬ p.CanResolve n) :
    (old.reconcile p siblings).AgreeOn old n := by
  have hRec : ¬ old.Recomputes p n := fun h => hCan h.2
  constructor
  · intro c
    rw [mem_get_reconcile]
    simp [hRec]
  · rw [mem_empty_reconcile]
    simp [hRec]

/-- Two locks that agree on a name, and two projects that say the same about it, are reconciled into
locks that agree on it. The siblings may differ, as long as the two projects say the same with them.
-/
theorem reconcile_agreeOn {q : Project} {siblings' : List Sibling} (h : l.AgreeOn l' n)
    (hCan : p.CanResolve n ↔ q.CanResolve n)
    (hLocks : ∀ c, p.Locks siblings n c ↔ q.Locks siblings' n c)
    (hNothing : p.LocksNothing siblings n ↔ q.LocksNothing siblings' n) :
    (l.reconcile p siblings).AgreeOn (l'.reconcile q siblings') n := by
  have hRec : l.Recomputes p n ↔ l'.Recomputes q n := by
    rw [recomputes_iff, recomputes_iff, h.mem_tracked_iff, hCan]
  constructor
  · intro c
    rw [mem_get_reconcile, mem_get_reconcile, hRec, h.locked c, hLocks c]
  · rw [mem_empty_reconcile, mem_empty_reconcile, hRec, h.empty, hNothing]

end Lock

end Lockstep
