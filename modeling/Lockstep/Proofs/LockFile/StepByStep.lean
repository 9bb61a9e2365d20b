import Lockstep.Proofs.Lock.Cells
import Lockstep.Proofs.LockFile.ReadBack

/-!
# Lockstep — what changes one by one make of a lock file

A lock is changed step by step, by the names that join it, the sets that are cleared and
the entries that are read from it. What it is then, what its entries are and what is
written of it follow from the steps alone.

* `Lock.listsInOrder_entries` — which entries are read, and in which order.
* `run_exact` — the lock, its entries and its text after any steps.
-/

namespace Lockstep

-- ---------------------------------------------------------------------------
-- Entries in order
-- ---------------------------------------------------------------------------

namespace Lock

/-- The entries are the coordinates that have names, with all of these. They stand
in the order of the coordinates' texts, and those of one text as in the table. -/
structure ListsInOrder (l : Lock) (es : List (Coordinate × NameSet)) : Prop where
  mem_iff : ∀ c s, (c, s) ∈ es ↔ c ∈ l.locked.keys ∧ l.locked.get c = s ∧ s ≠ ∅
  sorted : es.Pairwise fun e e' => ¬ e'.1.text < e.1.text
  stable : ∀ t, (es.map (·.1)).filter (·.text = t) =
    l.locked.keys.filter fun c => c.text = t ∧ l.locked.get c ≠ ∅

/-- Entries of one text, which takes colons in the fields of a coordinate, stand in
the order of the table. -/
theorem stable_entries (l : Lock) (t : Text) :
    (l.entries.map (·.1)).filter (·.text = t) =
      l.locked.keys.filter fun c => c.text = t ∧ l.locked.get c ≠ ∅ := by
  -- sorting by texts does not move entries of one text against each other
  have hEntries : l.entries.filter (fun e => e.1.text = t) =
      (l.locked.entries.filter fun e => e.1.text = t).filter fun e => !e.2.isEmpty := by
    rw [entries, List.filter_comm, Text.filter_sortBy]
  rw [List.filter_map, LockTable.keys, List.filter_map]
  congr 1
  refine hEntries.trans ?_
  rw [List.filter_filter]
  apply List.filter_congr
  intro e he
  obtain ⟨-, hs⟩ := LockTable.mem_entries_iff.1 he
  have hEmpty : e.2.isEmpty = decide (e.2 = ∅) := by
    rw [Bool.eq_iff_iff, NameSet.isEmpty_iff, decide_eq_true_iff]
  simp [hs, hEmpty, Bool.and_comm]

/-- The entries are read in the order of their texts, and none without names is among them. -/
theorem listsInOrder_entries (l : Lock) : l.ListsInOrder l.entries where
  mem_iff := by
    intro c s
    rw [mem_entries]
    constructor
    · rintro ⟨hs, hne⟩
      obtain ⟨n, hn⟩ := NameSet.ne_empty_iff.1 hne
      exact ⟨LockTable.mem_keys_of_mem_get (hs ▸ hn), hs, hne⟩
    · exact fun h => h.2
  sorted := (Text.pairwise_sortBy (·.1.text) l.locked.entries).filter _ |>.imp Sorting.upTo_iff.1
  stable := l.stable_entries

end Lock

-- ---------------------------------------------------------------------------
-- After any steps
-- ---------------------------------------------------------------------------

namespace LockFile

/-- What is written of a lock without comments: the lines of its entries and the last line. -/
theorem render_lock (l : Lock) :
    render { lock := l } [] =
      match l.firstNameless? with
      | some i => .error ⟨i⟩
      | none => .ok (Text.joinWith [char '\n'] (l.entries.map entryText ++ [emptyLine l.empty.toList])) := by
  rw [render_eq_match]
  cases l.firstNameless? with
  | some i => rfl
  | none => rfl

/--
**A lock is what its steps say.** Whatever steps a lock without anything goes through, a name
locks a coordinate iff it was added and the coordinate not cleared after that; the coordinates
stand in the order in which each was added first; and the names with nothing to lock are those
that were added as such. The entries are the coordinates with names, in order; they share
nothing with the lock, so that it is the same if its sets, and those of every entry read on the
way, are cells that are changed in place. Without comments, the text is one line for each entry
and the line of the names with nothing to lock; it is missing iff the only name of an entry is
empty, and what is reported is the place of the first such entry.
-/
theorem run_exact (steps : List Lock.Step) :
    let l := ({} : Lock).run steps
    (∀ c n, n ∈ l.locked.get c ↔
      ∃ before after, steps = before ++ .add c n :: after ∧ .clear c ∉ after) ∧
    l.locked.keys = (steps.filterMap Lock.Step.added?).eraseDups ∧
    (∀ n, n ∈ l.empty ↔ .addEmpty n ∈ steps) ∧
    l.ListsInOrder l.entries ∧
    (({} : Lock.Cells).run steps).Shows l ∧
    (∀ i, render { lock := l } [] = .error ⟨i⟩ ↔
      l.entries.findIdx? (fun e => e.2 = NameSet.singleton []) = some i) ∧
    (∀ text, render { lock := l } [] = .ok text ↔
      (∀ e ∈ l.entries, e.2 ≠ NameSet.singleton []) ∧
      text = Text.joinWith [char '\n'] (l.entries.map entryText ++ [emptyLine l.empty.toList])) := by
  intro l
  refine ⟨fun c n => Lock.mem_get_run, Lock.keys_run steps, fun n => Lock.mem_empty_run,
    l.listsInOrder_entries, Lock.Cells.shows_run steps, fun i => ?_, fun text => ?_⟩
  · rw [render_lock, Lock.firstNameless?]
    cases l.entries.findIdx? (fun e => e.2 = NameSet.singleton []) <;> simp
  · -- a text is missing for the first entry whose only name is empty, and for no other reason
    have hNone : l.firstNameless? = none ↔ ∀ e ∈ l.entries, e.2 ≠ NameSet.singleton [] := by
      simp [Lock.firstNameless?, List.findIdx?_eq_none_iff]
    rw [render_lock, ← hNone]
    cases l.firstNameless? <;> simp [eq_comm]

end LockFile

end Lockstep
