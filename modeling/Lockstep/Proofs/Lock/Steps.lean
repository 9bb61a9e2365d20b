import Lockstep.Proofs.Lock.Table
import Lockstep.Proofs.Text.Order
import Mathlib.Data.List.Induction

/-!
# Lockstep — locks that are changed step by step

A lock that starts without anything is described by the steps that were taken: what
one step does to each set, to the coordinates and to the names with nothing to lock
(`mem_get_step`, `keys_step`, `mem_empty_step`), and from it what a run has done.

* `mem_get_run`   — a name is in a set iff it was added, and the set not cleared later.
* `keys_run`      — the coordinates in the order in which each was first added.
* `mem_empty_run` — the names with nothing to lock that were added.
-/

namespace Lockstep

-- ---------------------------------------------------------------------------
-- Sets that are cleared
-- ---------------------------------------------------------------------------

namespace LockTable

theorem get_eq_empty {t : LockTable} {c : Coordinate} (h : c ∉ t.keys) : t.get c = ∅ := by
  by_cases hEmpty : t.get c = ∅
  · exact hEmpty
  · obtain ⟨n, hn⟩ := NameSet.ne_empty_iff.1 hEmpty
    exact absurd (mem_keys_of_mem_get hn) h

/-- Clearing a coordinate keeps its place in the table. -/
@[simp] theorem keys_clear (t : LockTable) (c : Coordinate) : (t.clear c).keys = t.keys := by
  rw [clear]
  split
  · next hc => rw [put, keys_alter, if_pos hc]
  · rfl

/-- Clearing a coordinate takes the names of this one, and of no other. -/
theorem get_clear (t : LockTable) (c d : Coordinate) :
    (t.clear c).get d = if d = c then ∅ else t.get d := by
  rw [clear]
  split
  · rw [put, get_alter]
  · next hc =>
    split
    · next hd => rw [hd, get_eq_empty hc]
    · rfl

end LockTable

namespace Lock

variable {l : Lock} {steps : List Step} {s : Step} {c : Coordinate} {n : Text}

-- ---------------------------------------------------------------------------
-- One step
-- ---------------------------------------------------------------------------

/-- The coordinate that a step locks, if it does. -/
def Step.added? : Step → Option Coordinate
  | .add c _ => some c
  | _ => none

/-- After a step a name is in a set if the step added it, or if it was there and
the set not cleared. Reading entries, and what is done to them afterwards, is no
change at all. -/
theorem mem_get_step :
    n ∈ (l.step s).locked.get c ↔ s = .add c n ∨ (s ≠ .clear c ∧ n ∈ l.locked.get c) := by
  cases s with
  | add d m =>
    rw [step, add, LockTable.add, LockTable.get_alter]
    -- a step is about one coordinate, and leaves the sets of the others alone
    by_cases hc : c = d
    · subst hc
      simp [eq_comm]
    · simp [hc, Ne.symm hc]
  | clear d =>
    rw [step, LockTable.get_clear]
    by_cases hc : c = d
    · simp [hc]
    · simp [hc, Ne.symm hc]
  | addEmpty m => simp [step, addEmpty]
  | widenEntries m => simp [step]

/-- A coordinate that is locked first goes to the end. No other step changes the
coordinates: clearing one keeps its place, so that it is not moved when it is
locked again. -/
theorem keys_step (l : Lock) (s : Step) :
    (l.step s).locked.keys =
      match s.added? with
      | some c => if c ∈ l.locked.keys then l.locked.keys else l.locked.keys ++ [c]
      | none => l.locked.keys := by
  cases s with
  | add c n => exact LockTable.keys_alter _ _ _
  | clear c => exact LockTable.keys_clear _ _
  | addEmpty n => rfl
  | widenEntries n => rfl

/-- Names with nothing to lock are only ever added. -/
theorem mem_empty_step : n ∈ (l.step s).empty ↔ s = .addEmpty n ∨ n ∈ l.empty := by
  cases s with
  | addEmpty m => simp [step, addEmpty, eq_comm]
  | add d m => simp [step, add]
  | clear d => simp [step]
  | widenEntries m => simp [step]

-- ---------------------------------------------------------------------------
-- A run
-- ---------------------------------------------------------------------------

theorem run_concat (l : Lock) (steps : List Step) (s : Step) :
    l.run (steps ++ [s]) = (l.run steps).step s := by
  simp [run]

/-- A name locks a coordinate iff it was added, and the coordinate not cleared after
that. What happened before the last time it was added does not matter. -/
theorem mem_get_run :
    n ∈ (({} : Lock).run steps).locked.get c ↔
      ∃ before after, steps = before ++ .add c n :: after ∧ .clear c ∉ after := by
  -- on the last step, which is the one that `mem_get_step` speaks of
  induction steps using List.reverseRecOn with
  | nil =>
    refine iff_of_false (NameSet.not_mem_empty n) ?_
    rintro ⟨before, after, hSteps, -⟩
    simp at hSteps
  | append_singleton steps s ih =>
    rw [run_concat, mem_get_step, ih]
    constructor
    · rintro (rfl | ⟨hs, before, after, rfl, hAfter⟩)
      · exact ⟨steps, [], rfl, List.not_mem_nil⟩
      · refine ⟨before, after ++ [s], by simp, ?_⟩
        rw [List.mem_append, List.mem_singleton, not_or]
        exact ⟨hAfter, Ne.symm hs⟩
    · rintro ⟨before, after, hSteps, hAfter⟩
      -- the added name is the last step, or stands before it
      rcases List.eq_nil_or_concat after with rfl | ⟨after, last, rfl⟩
      · obtain ⟨rfl, hLast⟩ := List.append_inj' hSteps rfl
        exact Or.inl (List.singleton_inj.1 hLast)
      · rw [List.concat_eq_append] at hSteps hAfter
        rw [← List.cons_append, ← List.append_assoc] at hSteps
        obtain ⟨rfl, hLast⟩ := List.append_inj' hSteps rfl
        rw [List.mem_append, List.mem_singleton, not_or] at hAfter
        rw [List.singleton_inj.1 hLast]
        exact Or.inr ⟨Ne.symm hAfter.2, before, after, rfl, hAfter.1⟩

/-- The coordinates are those that were ever added, in the order in which each was
added first. Clearing one does not take it away. -/
theorem keys_run (steps : List Step) :
    (({} : Lock).run steps).locked.keys = (steps.filterMap Step.added?).eraseDups := by
  induction steps using List.reverseRecOn with
  | nil => rfl
  | append_singleton steps s ih =>
    rw [run_concat, keys_step, ih, List.filterMap_append]
    cases hs : s.added? with
    | none => rw [List.filterMap_cons_none hs, List.filterMap_nil, List.append_nil]
    | some c =>
      rw [List.filterMap_cons_some hs, List.filterMap_nil, eraseDups_concat]
      simp only [List.mem_eraseDups]

/-- The names with nothing to lock are those that were ever added as such. -/
theorem mem_empty_run : n ∈ (({} : Lock).run steps).empty ↔ .addEmpty n ∈ steps := by
  induction steps using List.reverseRecOn with
  | nil => simp [run]
  | append_singleton steps s ih =>
    rw [run_concat, mem_empty_step, ih, List.mem_append, List.mem_singleton, or_comm, eq_comm]

end Lock

end Lockstep
