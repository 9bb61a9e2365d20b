import Lockstep.Proofs.Lock.Steps
import Mathlib.Data.List.Nodup

/-!
# Lockstep — locks whose sets are changed in place

A lock may keep each set in a cell of a store, and change what the cell holds. Entries
that are read are then handed out with cells of their own, so that a change of what was
handed out is not a change of the lock. `Cells` keeps this account.

* `IsApart`   — no cell has two owners; it holds from the start and after every step.
* `shown_change_of_mem_handed` — a cell that was handed out is none of the lock's.
* `shows_run` — after any steps the cells show the lock that the same steps make.
-/

namespace Lockstep

namespace Lock

-- ---------------------------------------------------------------------------
-- The store
-- ---------------------------------------------------------------------------

/-- A lock that keeps its sets in cells. -/
structure Cells where
  /-- What the cells hold. -/
  sets : List NameSet := []
  /-- The coordinates in order of entry, each with its cell. -/
  table : List (Coordinate × Nat) := []
  /-- The cells of the entries that were read. -/
  handed : List Nat := []
  empty : NameSet := ∅
  deriving DecidableEq, Repr

namespace Cells

/-- What a cell holds. -/
def held (m : Cells) (k : Nat) : NameSet := (m.sets[k]?).getD ∅

/-- Changes what a cell holds. -/
def change (m : Cells) (k : Nat) (f : NameSet → NameSet) : Cells :=
  { m with sets := m.sets.modify k f }

/-- Coordinates with what their cells hold. -/
def shownOf (m : Cells) (table : List (Coordinate × Nat)) : List (Coordinate × NameSet) :=
  table.map fun e => (e.1, m.held e.2)

/-- The coordinates of the lock, each with its set. -/
def shown (m : Cells) : List (Coordinate × NameSet) := m.shownOf m.table

/-- New cells, which hold the given sets. -/
def alloc (m : Cells) (sets : List NameSet) : Cells := { m with sets := m.sets ++ sets }

/-- Gives a new coordinate a cell without names. -/
def enter (m : Cells) (c : Coordinate) : Cells :=
  if c ∈ m.table.map (·.1) then m
  else { m.alloc [∅] with table := m.table ++ [(c, m.sets.length)] }

/-- Changes the set of a coordinate, if it has one. -/
def changeAt (m : Cells) (c : Coordinate) (f : NameSet → NameSet) : Cells :=
  match m.table.lookup c with
  | some k => m.change k f
  | none => m

/-- The sets of the entries, in their order. -/
def entrySets (m : Cells) : List NameSet :=
  ((Text.sortBy (·.1.text) m.shown).filter fun e => !e.2.isEmpty).map (·.2)

/-- Reads the entries, and hands out a copy of each set. -/
def handOut (m : Cells) : Cells :=
  { m.alloc m.entrySets with
    handed := m.handed ++ List.range' m.sets.length m.entrySets.length }

/-- A name joins every set that was handed out. -/
def widen (m : Cells) (n : Text) : Cells := m.handed.foldl (fun m k => m.change k (·.insert n)) m

/-- The cells after a change of the lock, or of entries read from it. -/
def step (m : Cells) : Step → Cells
  | .add c n => (m.enter c).changeAt c (·.insert n)
  | .addEmpty n => { m with empty := m.empty.insert n }
  | .clear c => m.changeAt c fun _ => ∅
  | .widenEntries n => m.handOut.widen n

/-- The cells after a sequence of changes. -/
def run (m : Cells) (steps : List Step) : Cells := steps.foldl step m

/-- The cells of the lock, and those that were handed out. -/
def owned (m : Cells) : List Nat := m.table.map (·.2) ++ m.handed

/-- No cell has two owners, and every owner has a cell. -/
structure IsApart (m : Cells) : Prop where
  nodup : m.owned.Nodup
  stored : ∀ k ∈ m.owned, k < m.sets.length

/-- The cells hold what a lock records, each set in a cell of its own. -/
structure Shows (m : Cells) (l : Lock) : Prop where
  apart : m.IsApart
  shown : m.shown = l.locked.entries
  empty : m.empty = l.empty

variable {m : Cells} {l : Lock} {c : Coordinate} {k : Nat} {f : NameSet → NameSet}

theorem map_fst_shownOf (m : Cells) (table : List (Coordinate × Nat)) :
    (m.shownOf table).map (·.1) = table.map (·.1) := by
  simp [shownOf]

theorem shownOf_append_cons (m : Cells) (before after : List (Coordinate × Nat)) (c : Coordinate)
    (k : Nat) :
    m.shownOf (before ++ (c, k) :: after) = m.shownOf before ++ (c, m.held k) :: m.shownOf after := by
  simp [shownOf]

-- ---------------------------------------------------------------------------
-- A change of one cell
-- ---------------------------------------------------------------------------

theorem held_change_self (h : k < m.sets.length) : (m.change k f).held k = f (m.held k) := by
  simp [held, change, h]

theorem held_change_of_ne {j : Nat} (h : j ≠ k) : (m.change k f).held j = m.held j := by
  simp [held, change, Ne.symm h]

/-- What a cell holds says nothing about who owns it. -/
theorem IsApart.change (h : m.IsApart) (k : Nat) (f : NameSet → NameSet) : (m.change k f).IsApart where
  nodup := h.nodup
  stored := by
    intro j hj
    rw [Cells.change, List.length_modify]
    exact h.stored j hj

/-- Coordinates that do not own the cell are shown as before. -/
theorem shownOf_change_of_not_mem {table : List (Coordinate × Nat)} (h : k ∉ table.map (·.2)) :
    (m.change k f).shownOf table = m.shownOf table := by
  apply List.map_congr_left
  intro e he
  have hne : e.2 ≠ k := fun heq => h (heq ▸ List.mem_map_of_mem he)
  rw [held_change_of_ne hne]

/-- A cell that was handed out may be changed: it is none of the lock's, since no
cell has two owners. -/
theorem shown_change_of_mem_handed (h : m.IsApart) (hk : k ∈ m.handed) :
    (m.change k f).shown = m.shown :=
  shownOf_change_of_not_mem fun hTable => (List.nodup_append.1 h.nodup).2.2 k hTable k hk rfl

/-- A change of the cell of a coordinate is a change of its entry, and of no
other. The coordinate is found at its first occurrence, and each coordinate has a
cell of its own. -/
theorem shown_change_of_lookup (h : m.IsApart) (hk : m.table.lookup c = some k) :
    (m.change k f).shown = LockTable.alterEntries c f m.shown := by
  obtain ⟨before, after, hTable, hBefore⟩ := List.lookup_eq_some_iff.1 hk
  have hCells : (before.map (·.2) ++ k :: after.map (·.2)).Nodup := by
    have := (List.nodup_append.1 h.nodup).1
    rwa [hTable, List.map_append, List.map_cons] at this
  -- neither the entries before nor those after it own the cell that is changed
  obtain ⟨hOthers, -⟩ := List.nodup_cons.1 (List.nodup_middle.1 hCells)
  rw [List.mem_append, not_or] at hOthers
  have hlt : k < m.sets.length := by
    apply h.stored
    simp [owned, hTable]
  have hNew : c ∉ (m.shownOf before).map (·.1) := by
    rw [map_fst_shownOf]
    rintro hc
    obtain ⟨e, he, rfl⟩ := List.mem_map.1 hc
    simpa using hBefore e he
  show (m.change k f).shownOf m.table = LockTable.alterEntries c f (m.shownOf m.table)
  rw [hTable, shownOf_append_cons, shownOf_append_cons, shownOf_change_of_not_mem hOthers.1,
    shownOf_change_of_not_mem hOthers.2, held_change_self hlt,
    LockTable.alterEntries_append_cons hNew]

theorem not_mem_of_lookup_eq_none (h : m.table.lookup c = none) : c ∉ m.table.map (·.1) := by
  rintro hc
  obtain ⟨e, he, rfl⟩ := List.mem_map.1 hc
  simpa using List.lookup_eq_none_iff.1 h e he

/-- A change at a coordinate leaves every cell with its owner. -/
theorem IsApart.changeAt (h : m.IsApart) (c : Coordinate) (f : NameSet → NameSet) :
    (m.changeAt c f).IsApart := by
  rw [Cells.changeAt]
  split
  · next k _ => exact h.change k f
  · exact h

theorem changeAt_of_not_mem (hc : c ∉ m.table.map (·.1)) : m.changeAt c f = m := by
  rw [changeAt]
  split
  · next k hk =>
    obtain ⟨before, after, hTable, -⟩ := List.lookup_eq_some_iff.1 hk
    simp [hTable] at hc
  · rfl

/-- A change at a coordinate that is in the table is a change of its entry. -/
theorem shown_changeAt (h : m.IsApart) (hc : c ∈ m.table.map (·.1)) :
    (m.changeAt c f).shown = LockTable.alterEntries c f m.shown := by
  rw [changeAt]
  split
  · next k hk => exact shown_change_of_lookup h hk
  · next hNone => exact absurd hc (not_mem_of_lookup_eq_none hNone)

-- ---------------------------------------------------------------------------
-- New cells
-- ---------------------------------------------------------------------------

theorem held_alloc (hk : k < m.sets.length) (sets : List NameSet) :
    (m.alloc sets).held k = m.held k := by
  simp [held, alloc, List.getElem?_append_left hk]

/-- New cells do not change what the coordinates have, since each coordinate has a
cell already. -/
theorem shown_alloc (h : m.IsApart) (sets : List NameSet) : (m.alloc sets).shown = m.shown := by
  apply List.map_congr_left
  intro e he
  have hStored : e.2 < m.sets.length :=
    h.stored e.2 (List.mem_append_left _ (List.mem_map_of_mem he))
  rw [held_alloc hStored]

/-- The cell of a new coordinate is a new one, which nobody owns yet. A coordinate
that is in the table keeps its cell. -/
theorem IsApart.enter (h : m.IsApart) (c : Coordinate) : (m.enter c).IsApart := by
  rw [Cells.enter]
  split
  · exact h
  · -- the new cell comes after all that have an owner
    have hNew : m.sets.length ∉ m.owned := fun hMem => Nat.lt_irrefl _ (h.stored _ hMem)
    have hOwned : ({ m.alloc [∅] with table := m.table ++ [(c, m.sets.length)] } : Cells).owned =
        m.table.map (·.2) ++ m.sets.length :: m.handed := by
      simp [owned, alloc]
    constructor
    · rw [hOwned]
      exact List.nodup_middle.2 (List.nodup_cons.2 ⟨hNew, h.nodup⟩)
    · intro k hk
      rw [hOwned] at hk
      show k < (m.sets ++ [∅]).length
      rw [List.length_append, List.length_singleton]
      rcases List.mem_cons.1 (List.perm_middle.mem_iff.1 hk) with rfl | hk
      · exact Nat.lt_succ_self _
      · exact Nat.lt_succ_of_lt (h.stored k hk)

/-- A new coordinate is shown after the others, without names. -/
theorem shown_enter (h : m.IsApart) (hc : c ∉ m.table.map (·.1)) :
    (m.enter c).shown = m.shown ++ [(c, ∅)] := by
  have hNew : (m.alloc [∅]).held m.sets.length = ∅ := by simp [held, alloc]
  rw [enter, if_neg hc]
  show (m.alloc [∅]).shownOf (m.table ++ [(c, m.sets.length)]) = m.shown ++ [(c, ∅)]
  rw [shownOf_append_cons, hNew]
  exact congrArg (· ++ [(c, (∅ : NameSet))]) (shown_alloc h [∅])

/-- A coordinate that gets a name is entered first, if it is new. In either case the
change is the one that a lock makes of its table. -/
theorem shown_changeAt_enter (h : m.IsApart) :
    ((m.enter c).changeAt c f).shown = LockTable.alterEntries c f m.shown := by
  by_cases hc : c ∈ m.table.map (·.1)
  · rw [enter, if_pos hc, shown_changeAt h hc]
  · have hEntered : c ∈ (m.enter c).table.map (·.1) := by simp [enter, hc]
    have hNew : c ∉ m.shown.map (·.1) := by rwa [shown, map_fst_shownOf]
    rw [shown_changeAt (h.enter c) hEntered, shown_enter h hc,
      LockTable.alterEntries_append_cons hNew, LockTable.alterEntries_of_not_mem hNew]

@[simp] theorem empty_enter (m : Cells) (c : Coordinate) : (m.enter c).empty = m.empty := by
  rw [enter]
  split <;> rfl

@[simp] theorem empty_changeAt (m : Cells) (c : Coordinate) (f : NameSet → NameSet) :
    (m.changeAt c f).empty = m.empty := by
  rw [changeAt]
  split <;> rfl

/-- The cells that are handed out are new ones: neither the lock nor an earlier
reader owns them. -/
theorem IsApart.handOut (h : m.IsApart) : m.handOut.IsApart := by
  constructor
  · show (m.table.map (·.2) ++ (m.handed ++ List.range' m.sets.length m.entrySets.length)).Nodup
    rw [← List.append_assoc]
    refine List.nodup_append.2 ⟨h.nodup, List.nodup_range', ?_⟩
    -- the new cells come after all that have an owner
    intro j hj k hk heq
    have hLow := (List.mem_range'_1.1 hk).1
    have hHigh := h.stored j hj
    omega
  · intro k hk
    show k < (m.sets ++ m.entrySets).length
    rw [List.length_append]
    have hk' : k ∈ m.owned ++ List.range' m.sets.length m.entrySets.length := by
      simpa [owned, Cells.handOut, alloc] using hk
    rcases List.mem_append.1 hk' with hOld | hNew
    · exact Nat.lt_add_right _ (h.stored k hOld)
    · exact (List.mem_range'_1.1 hNew).2

/-- Reading the entries does not change what the lock shows. -/
theorem shown_handOut (h : m.IsApart) : m.handOut.shown = m.shown :=
  shown_alloc h m.entrySets

-- ---------------------------------------------------------------------------
-- Steps
-- ---------------------------------------------------------------------------

/-- A coordinate has a cell if and only if the lock has an entry for it. -/
theorem Shows.keys (h : m.Shows l) : m.table.map (·.1) = l.locked.keys := by
  rw [← map_fst_shownOf m m.table]
  exact congrArg (List.map (·.1)) h.shown

/-- Whatever happens to a set that was handed out, the lock does not see it. -/
theorem Shows.change_of_mem_handed (h : m.Shows l) (hk : k ∈ m.handed)
    (f : NameSet → NameSet) : (m.change k f).Shows l :=
  ⟨h.apart.change k f, (shown_change_of_mem_handed h.apart hk).trans h.shown, h.empty⟩

/-- Cells that show a lock show it after its entries were read. -/
theorem Shows.handOut (h : m.Shows l) : m.handOut.Shows l :=
  ⟨h.apart.handOut, (shown_handOut h.apart).trans h.shown, h.empty⟩

/-- Names may join all the sets that were handed out, and the cells still show
the same lock. The induction is on the cells that were handed out, each of which
is changed. -/
theorem Shows.widen (h : m.Shows l) (n : Text) : (m.widen n).Shows l := by
  -- the cells to change are taken from the list one by one, and stay handed out
  have hFold : ∀ (handed : List Nat) (m : Cells), m.Shows l → (∀ k ∈ handed, k ∈ m.handed) →
      (handed.foldl (fun m k => m.change k (·.insert n)) m).Shows l := by
    intro handed
    induction handed with
    | nil => exact fun m h _ => h
    | cons k rest ih =>
      intro m h hHanded
      exact ih _ (h.change_of_mem_handed (hHanded k List.mem_cons_self) _)
        fun j hj => hHanded j (List.mem_cons_of_mem _ hj)
  exact hFold m.handed m h fun _ hk => hk

/-- Cells that show a lock show, after any step, the lock after that step. For a
step on entries that were read this says that the lock is the same. -/
theorem Shows.step (h : m.Shows l) (s : Step) : (m.step s).Shows (l.step s) := by
  cases s with
  | add c n =>
    refine ⟨(h.apart.enter c).changeAt c _, ?_, ?_⟩
    · show ((m.enter c).changeAt c (·.insert n)).shown =
        LockTable.alterEntries c (·.insert n) l.locked.entries
      rw [shown_changeAt_enter h.apart, h.shown]
    · show ((m.enter c).changeAt c (·.insert n)).empty = l.empty
      rw [empty_changeAt, empty_enter, h.empty]
  | addEmpty n => exact ⟨⟨h.apart.nodup, h.apart.stored⟩, h.shown, congrArg (·.insert n) h.empty⟩
  | clear c =>
    refine ⟨h.apart.changeAt c _, ?_, (empty_changeAt m c _).trans h.empty⟩
    show (m.changeAt c fun _ => ∅).shown = (l.locked.clear c).entries
    -- a coordinate that is not there has no cell, and no set to be cleared
    by_cases hc : c ∈ l.locked.keys
    · rw [shown_changeAt h.apart (h.keys ▸ hc), h.shown, LockTable.clear, if_pos hc]
      rfl
    · rw [changeAt_of_not_mem (h.keys ▸ hc), h.shown, LockTable.clear, if_neg hc]
  | widenEntries n => exact h.handOut.widen n

/-- The cells show the lock after any steps, whatever becomes of entries read on
the way. What is proved of locks as values is thereby true of sets that are
changed in place. -/
theorem shows_run (steps : List Step) : (({} : Cells).run steps).Shows (({} : Lock).run steps) := by
  have hRun : ∀ (steps : List Step) (m : Cells) (l : Lock), m.Shows l →
      (m.run steps).Shows (l.run steps) := by
    intro steps
    induction steps with
    | nil => exact fun m l h => h
    | cons s rest ih => exact fun m l h => ih (m.step s) (l.step s) (h.step s)
  exact hRun steps {} {} ⟨⟨List.nodup_nil, fun k hk => absurd hk List.not_mem_nil⟩, rfl, rfl⟩

private def library : Coordinate := ⟨"org".text, "library".text, "1".text⟩

/-- The entry that was read gets the second name, the lock does not. -/
example : (({} : Cells).run [.add library "main".text, .widenEntries "test".text]).sets =
    [NameSet.ofList ["main".text], NameSet.ofList ["main".text, "test".text]] := by decide

end Cells

end Lock

end Lockstep
