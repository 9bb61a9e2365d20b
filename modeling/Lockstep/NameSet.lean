import Lockstep.Text.Basic

/-!
# Lockstep — sets of names

A set of configuration names is kept as the strictly increasing list of its
members. Two sets with the same members are therefore equal (`NameSet.ext`),
and writing a set needs no sorting.

* `mem_insert`, `mem_union`, `mem_diff`, `mem_ofList` — each operation through membership.
* `ext` — sets are determined by their members.
-/

namespace Lockstep

/-- The strictly increasing list of a set's names. -/
structure NameSet where
  toList : List Text
  increasing : toList.Pairwise (· < ·)
  deriving DecidableEq, Repr

namespace NameSet

-- ---------------------------------------------------------------------------
-- Membership
-- ---------------------------------------------------------------------------

instance : Membership Text NameSet := ⟨fun s n => n ∈ s.toList⟩

theorem mem_toList {s : NameSet} {n : Text} : n ∈ s.toList ↔ n ∈ s := Iff.rfl

instance (n : Text) (s : NameSet) : Decidable (n ∈ s) :=
  inferInstanceAs (Decidable (n ∈ s.toList))

/-- The set without members. -/
def empty : NameSet := ⟨[], List.Pairwise.nil⟩

instance : EmptyCollection NameSet := ⟨empty⟩

instance : Inhabited NameSet := ⟨∅⟩

@[simp] theorem not_mem_empty (n : Text) : n ∉ (∅ : NameSet) := List.not_mem_nil

/-- Whether the set has no members. -/
def isEmpty (s : NameSet) : Bool := s.toList.isEmpty

/-- The number of members. -/
def size (s : NameSet) : Nat := s.toList.length

private theorem eq_of_pairwise_of_mem_iff : ∀ {xs ys : List Text},
    xs.Pairwise (· < ·) → ys.Pairwise (· < ·) → (∀ n, n ∈ xs ↔ n ∈ ys) → xs = ys
  | [], [], _, _, _ => rfl
  | [], y :: ys, _, _, h => absurd ((h y).2 (by simp)) (by simp)
  | x :: xs, [], _, _, h => absurd ((h x).1 (by simp)) (by simp)
  | x :: xs, y :: ys, hx, hy, h => by
    have hx' := List.pairwise_cons.1 hx
    have hy' := List.pairwise_cons.1 hy
    have heq : x = y := by
      rcases List.mem_cons.1 ((h x).1 (by simp)) with e | hMem
      · exact e
      · rcases List.mem_cons.1 ((h y).2 (by simp)) with e | hMem'
        · exact e.symm
        · exact absurd (hx'.1 y hMem') (List.lt_asymm (hy'.1 x hMem))
    subst heq
    congr 1
    refine eq_of_pairwise_of_mem_iff hx'.2 hy'.2 fun n => ⟨fun hn => ?_, fun hn => ?_⟩
    · rcases List.mem_cons.1 ((h n).1 (List.mem_cons_of_mem _ hn)) with e | hMem
      · exact absurd (e ▸ hx'.1 n hn) (List.lt_irrefl _)
      · exact hMem
    · rcases List.mem_cons.1 ((h n).2 (List.mem_cons_of_mem _ hn)) with e | hMem
      · exact absurd (e ▸ hy'.1 n hn) (List.lt_irrefl _)
      · exact hMem

/-- Sets with the same members are equal. -/
theorem ext {s t : NameSet} (h : ∀ n, n ∈ s ↔ n ∈ t) : s = t := by
  obtain ⟨xs, hx⟩ := s
  obtain ⟨ys, hy⟩ := t
  have : xs = ys := eq_of_pairwise_of_mem_iff hx hy h
  subst this
  rfl

-- ---------------------------------------------------------------------------
-- Insertion
-- ---------------------------------------------------------------------------

/-- Puts a name at its place in an increasing list, unless it is there. -/
def insertSorted (n : Text) : List Text → List Text
  | [] => [n]
  | m :: rest => if n < m then n :: m :: rest else if n = m then m :: rest else m :: insertSorted n rest

theorem mem_insertSorted {n m : Text} {ms : List Text} :
    m ∈ insertSorted n ms ↔ m = n ∨ m ∈ ms := by
  induction ms with
  | nil => simp [insertSorted]
  | cons k rest ih =>
    simp only [insertSorted]
    split
    · simp
    · split
      · next h => subst h; simp
      · simp only [List.mem_cons, ih]
        exact or_left_comm

theorem insertSorted_increasing {n : Text} {ms : List Text} (h : ms.Pairwise (· < ·)) :
    (insertSorted n ms).Pairwise (· < ·) := by
  induction ms with
  | nil => simp [insertSorted]
  | cons m rest ih =>
    have hm := List.pairwise_cons.1 h
    simp only [insertSorted]
    split
    · next hlt =>
      refine List.pairwise_cons.2 ⟨fun k hk => ?_, h⟩
      rcases List.mem_cons.1 hk with rfl | hk
      · exact hlt
      · exact List.lt_trans hlt (hm.1 k hk)
    · next hNlt =>
      split
      · exact h
      · next hne =>
        refine List.pairwise_cons.2 ⟨fun k hk => ?_, ih hm.2⟩
        rcases mem_insertSorted.1 hk with rfl | hk
        · exact List.not_le.1 fun hle => hne (List.le_antisymm hle (List.not_lt.1 hNlt))
        · exact hm.1 k hk

/-- The set with one more name. -/
def insert (n : Text) (s : NameSet) : NameSet :=
  ⟨insertSorted n s.toList, insertSorted_increasing s.increasing⟩

@[simp] theorem mem_insert {n m : Text} {s : NameSet} : m ∈ s.insert n ↔ m = n ∨ m ∈ s :=
  mem_insertSorted

/-- The set of one name. -/
def singleton (n : Text) : NameSet := insert n ∅

@[simp] theorem mem_singleton {n m : Text} : m ∈ singleton n ↔ m = n := by
  simp [singleton]

/-- The set of the names of a list. -/
def ofList (ns : List Text) : NameSet := ns.foldr insert ∅

@[simp] theorem mem_ofList {ns : List Text} {m : Text} : m ∈ ofList ns ↔ m ∈ ns := by
  induction ns with
  | nil => simp [ofList]
  | cons n rest ih => simpa [ofList] using or_congr Iff.rfl ih

-- ---------------------------------------------------------------------------
-- Union and difference
-- ---------------------------------------------------------------------------

/-- The names of one set or the other. -/
def union (s t : NameSet) : NameSet := t.toList.foldr insert s

instance : Union NameSet := ⟨union⟩

@[simp] theorem mem_union {s t : NameSet} {n : Text} : n ∈ s ∪ t ↔ n ∈ s ∨ n ∈ t := by
  have : ∀ ns : List Text, n ∈ ns.foldr insert s ↔ n ∈ s ∨ n ∈ ns := by
    intro ns
    induction ns with
    | nil => simp
    | cons m rest ih => simp [ih, or_left_comm]
  exact this t.toList

/-- The names with a property. -/
def filter (keep : Text → Bool) (s : NameSet) : NameSet :=
  ⟨s.toList.filter keep, s.increasing.filter _⟩

@[simp] theorem mem_filter {keep : Text → Bool} {s : NameSet} {n : Text} :
    n ∈ s.filter keep ↔ n ∈ s ∧ keep n = true := List.mem_filter

/-- The names of the first set that the second lacks. -/
def diff (s t : NameSet) : NameSet := s.filter fun n => decide (n ∉ t)

instance : SDiff NameSet := ⟨diff⟩

@[simp] theorem mem_diff {s t : NameSet} {n : Text} : n ∈ s \ t ↔ n ∈ s ∧ n ∉ t := by
  show n ∈ s.filter _ ↔ _
  simp

theorem isEmpty_iff {s : NameSet} : s.isEmpty = true ↔ s = ∅ := by
  obtain ⟨xs, h⟩ := s
  cases xs with
  | nil => simp [isEmpty]; rfl
  | cons x rest =>
    simp only [isEmpty, List.isEmpty_cons, Bool.false_eq_true, false_iff]
    intro e
    exact absurd (congrArg toList e) (by simp [EmptyCollection.emptyCollection, empty])

theorem ne_empty_iff {s : NameSet} : s ≠ ∅ ↔ ∃ n, n ∈ s := by
  constructor
  · intro hne
    by_cases h : ∃ n, n ∈ s
    · exact h
    · exact absurd (ext fun n => iff_of_false (fun hn => h ⟨n, hn⟩) (not_mem_empty n)) hne
  · rintro ⟨n, hn⟩ rfl
    exact not_mem_empty n hn

theorem isEmpty_eq_false_iff {s : NameSet} : s.isEmpty = false ↔ ∃ n, n ∈ s := by
  rw [← Bool.not_eq_true, isEmpty_iff]
  exact ne_empty_iff

end NameSet

end Lockstep
