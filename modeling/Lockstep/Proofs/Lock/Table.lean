import Lockstep.Lock

/-!
# Lockstep — tables through their sets

A table is known by two views: the set of each coordinate, and the coordinates
in their order. `addEntries` adds one entry after the other; reading a file and
reconciling a lock both build their tables with it.

* `map_eraseDups`, `filter_eraseDups`, `eraseDups_concat` — the first occurrences of images, of
  what is kept, and of what stands at the end.
* `mem_get_addEntries` — a set is the union of what was there and all that is added.
* `keys_addEntries`    — old coordinates keep their places, new ones follow in the
  order in which each is first met.
* `mem_entries_iff`, `mem_names`, `Lock.mem_tracked` — entries and names through
  the sets.
-/

namespace Lockstep

-- ---------------------------------------------------------------------------
-- First occurrences
-- ---------------------------------------------------------------------------

/-- Values that a function tells apart are first met where their images are. A
list without repetitions may thus be compared by its images, as coordinates are by
their fields. -/
theorem map_eraseDups {α β : Type} [BEq α] [LawfulBEq α] [BEq β] [LawfulBEq β] {f : α → β}
    (hf : ∀ a b, f a = f b → a = b) : (xs : List α) → (xs.map f).eraseDups = xs.eraseDups.map f
  | [] => by simp
  | x :: rest => by
    -- an image occurs again just where the element does, since no other has it
    have hLater : (rest.map f).filter (fun y => !y == f x) = (rest.filter fun y => !y == x).map f := by
      rw [List.filter_map]
      congr 1
      apply List.filter_congr
      intro y _
      rw [Function.comp_apply, Bool.not_inj_iff, Bool.eq_iff_iff, beq_iff_eq, beq_iff_eq]
      exact ⟨hf y x, congrArg f⟩
    rw [List.map_cons, List.eraseDups_cons, List.eraseDups_cons, List.map_cons, hLater,
      map_eraseDups hf]
  termination_by xs => xs.length
  decreasing_by
    rw [List.length_cons]
    exact Nat.lt_succ_of_le (List.length_filter_le _ _)

/-- What is kept is first met where it was. The recursion is the one of `eraseDups`,
on the list without its first value. -/
theorem filter_eraseDups {α : Type} [BEq α] [LawfulBEq α] (keep : α → Bool) :
    (xs : List α) → (xs.filter keep).eraseDups = xs.eraseDups.filter keep
  | [] => by simp
  | x :: rest => by
    have ih := filter_eraseDups keep (rest.filter fun y => !y == x)
    rw [List.eraseDups_cons, List.filter_cons, List.filter_cons, ← ih, List.filter_filter]
    cases hx : keep x with
    | true =>
      rw [if_pos rfl, if_pos rfl, List.eraseDups_cons, List.filter_filter]
      congr 3
      funext y
      exact Bool.and_comm _ _
    | false =>
      rw [if_neg (by simp), if_neg (by simp)]
      congr 1
      apply List.filter_congr
      intro y _
      -- the value that is not kept need not be taken out
      by_cases hy : y = x
      · simp [hy, hx]
      · simp [hy]
  termination_by xs => xs.length
  decreasing_by
    rw [List.length_cons]
    exact Nat.lt_succ_of_le (List.length_filter_le _ _)

/-- The last value counts as met there iff it does not stand before. -/
theorem eraseDups_concat {α : Type} [BEq α] [LawfulBEq α] [DecidableEq α] (xs : List α) (x : α) :
    (xs ++ [x]).eraseDups = if x ∈ xs then xs.eraseDups else xs.eraseDups ++ [x] := by
  rw [List.eraseDups_append]
  by_cases h : x ∈ xs <;> simp [List.removeAll, List.eraseDups_cons, h]

namespace LockTable

-- ---------------------------------------------------------------------------
-- Entries and sets
-- ---------------------------------------------------------------------------

theorem eq_of_entries_eq {t u : LockTable} (h : t.entries = u.entries) : t = u := by
  obtain ⟨es, _⟩ := t
  obtain ⟨es', _⟩ := u
  subst h
  rfl

@[simp] theorem keys_empty : (∅ : LockTable).keys = [] := rfl

private theorem lookup_eq_some_iff {es : List (Coordinate × NameSet)} (h : (es.map (·.1)).Nodup)
    {c : Coordinate} {s : NameSet} : es.lookup c = some s ↔ (c, s) ∈ es := by
  induction es with
  | nil => simp
  | cons e rest ih =>
    obtain ⟨k, s'⟩ := e
    obtain ⟨hk, hRest⟩ := List.nodup_cons.1 h
    by_cases hc : c = k
    · subst hc
      have hno : ∀ s, (c, s) ∉ rest := fun s hMem => hk (List.mem_map.2 ⟨(c, s), hMem, rfl⟩)
      simp [hno, eq_comm]
    · simp [List.lookup_cons, beq_eq_false_iff_ne.2 hc, hc, ih hRest]

/-- The entries are the coordinates, each with its set. No coordinate has two
entries, so that the set that is looked up is the one of the entry. -/
theorem mem_entries_iff {t : LockTable} {c : Coordinate} {s : NameSet} :
    (c, s) ∈ t.entries ↔ c ∈ t.keys ∧ t.get c = s := by
  rw [← lookup_eq_some_iff t.nodup, get]
  constructor
  · intro h
    have hMem := (lookup_eq_some_iff t.nodup).1 h
    exact ⟨List.mem_map_of_mem hMem, by rw [h, Option.getD_some]⟩
  · rintro ⟨hc, hs⟩
    obtain ⟨⟨c', s'⟩, hMem, rfl⟩ := List.mem_map.1 hc
    have h := (lookup_eq_some_iff t.nodup).2 hMem
    rw [h, Option.getD_some] at hs
    rw [h, hs]

/-- A coordinate that some name locks is in the table. -/
theorem mem_keys_of_mem_get {t : LockTable} {c : Coordinate} {n : Text} (h : n ∈ t.get c) :
    c ∈ t.keys := by
  rw [get] at h
  cases hl : t.entries.lookup c with
  | none =>
    rw [hl] at h
    exact absurd h (NameSet.not_mem_empty n)
  | some s => exact List.mem_map_of_mem ((lookup_eq_some_iff t.nodup).1 hl)

/-- The names of a table are those that lock some coordinate. -/
theorem mem_names {t : LockTable} {n : Text} : n ∈ t.names ↔ ∃ c, n ∈ t.get c := by
  -- for any set to begin with, as the union goes on from the one it has made
  have hFold : ∀ (es : List (Coordinate × NameSet)) (s : NameSet),
      n ∈ es.foldl (fun s e => s ∪ e.2) s ↔ n ∈ s ∨ ∃ e ∈ es, n ∈ e.2 := by
    intro es
    induction es with
    | nil => simp
    | cons e rest ih =>
      intro s
      rw [List.foldl_cons, ih, NameSet.mem_union]
      simp [or_assoc]
  rw [names, hFold]
  constructor
  · rintro (h | ⟨⟨c, s⟩, hMem, hn⟩)
    · exact absurd h (NameSet.not_mem_empty n)
    · exact ⟨c, by rw [(mem_entries_iff.1 hMem).2]; exact hn⟩
  · rintro ⟨c, hn⟩
    exact Or.inr ⟨(c, t.get c), mem_entries_iff.2 ⟨mem_keys_of_mem_get hn, rfl⟩, hn⟩

-- ---------------------------------------------------------------------------
-- Adding entries
-- ---------------------------------------------------------------------------

/-- The table with entries added, one after the other. -/
def addEntries (t : LockTable) (es : List (Coordinate × NameSet)) : LockTable :=
  es.foldl (fun t e => t.addAll e.1 e.2) t

@[simp] theorem addEntries_nil (t : LockTable) : t.addEntries [] = t := rfl

@[simp] theorem addEntries_cons (t : LockTable) (e : Coordinate × NameSet)
    (es : List (Coordinate × NameSet)) :
    t.addEntries (e :: es) = (t.addAll e.1 e.2).addEntries es := rfl

theorem addEntries_append (t : LockTable) (es es' : List (Coordinate × NameSet)) :
    t.addEntries (es ++ es') = (t.addEntries es).addEntries es' :=
  List.foldl_append

/-- Adding a name is adding the set of this name. -/
theorem add_eq_addAll (t : LockTable) (c : Coordinate) (n : Text) :
    t.add c n = t.addAll c (NameSet.singleton n) := by
  have hSet : (fun s : NameSet => s.insert n) = (· ∪ NameSet.singleton n) := by
    funext s
    apply NameSet.ext
    intro m
    simp [or_comm]
  rw [add, addAll, hSet]

/-- Names that are added to one coordinate join its set, and leave the other sets alone. -/
theorem mem_get_addAll {t : LockTable} {c d : Coordinate} {s : NameSet} {n : Text} :
    n ∈ (t.addAll c s).get d ↔ n ∈ t.get d ∨ (c = d ∧ n ∈ s) := by
  rw [addAll, get_alter]
  by_cases h : d = c
  · subst h
    simp
  · simp [h, Ne.symm h]

/-- A set is the union of what was there and of all that is added to its coordinate. -/
theorem mem_get_addEntries {t : LockTable} {es : List (Coordinate × NameSet)} {c : Coordinate}
    {n : Text} : n ∈ (t.addEntries es).get c ↔ n ∈ t.get c ∨ ∃ e ∈ es, e.1 = c ∧ n ∈ e.2 := by
  induction es generalizing t with
  | nil => simp
  | cons e rest ih => simp [ih, mem_get_addAll, or_assoc]

/-- Old coordinates keep their places, and the new ones follow in the order in
which each is first met. This holds even if entries of one coordinate are added
several times. -/
theorem keys_addEntries (t : LockTable) (es : List (Coordinate × NameSet)) :
    (t.addEntries es).keys = t.keys ++ ((es.map (·.1)).removeAll t.keys).eraseDups := by
  induction es generalizing t with
  | nil => simp
  | cons e rest ih =>
    rw [addEntries_cons, ih, addAll, keys_alter, List.map_cons, List.cons_removeAll]
    by_cases h : e.1 ∈ t.keys
    · simp [h]
    · -- the new coordinate is met here, so that it does not count as new later on
      have hRest : (rest.map (·.1)).removeAll (t.keys ++ [e.1]) =
          ((rest.map (·.1)).removeAll t.keys).filter fun c => !c == e.1 := by
        rw [List.removeAll, List.removeAll, List.filter_filter]
        apply List.filter_congr
        intro c _
        by_cases hc : c = e.1 <;> simp [hc, h]
      simp [h, hRest, List.eraseDups_cons]

theorem mem_keys_addEntries {t : LockTable} {es : List (Coordinate × NameSet)} {c : Coordinate} :
    c ∈ (t.addEntries es).keys ↔ c ∈ t.keys ∨ ∃ e ∈ es, e.1 = c := by
  rw [keys_addEntries, List.mem_append, List.mem_eraseDups, List.removeAll]
  by_cases h : c ∈ t.keys <;> simp [h]

/-- A coordinate that is not there yet gets its entry at the end. -/
theorem alterEntries_of_not_mem {c : Coordinate} {f : NameSet → NameSet}
    {es : List (Coordinate × NameSet)} (h : c ∉ es.map (·.1)) :
    alterEntries c f es = es ++ [(c, f ∅)] := by
  induction es with
  | nil => rfl
  | cons e rest ih =>
    rw [List.map_cons, List.mem_cons, not_or] at h
    rw [alterEntries, if_neg (Ne.symm h.1), ih h.2, List.cons_append]

/-- A coordinate that is there keeps its place, and only its own set is changed. -/
theorem alterEntries_append_cons {c : Coordinate} {f : NameSet → NameSet} {s : NameSet}
    {before after : List (Coordinate × NameSet)} (h : c ∉ before.map (·.1)) :
    alterEntries c f (before ++ (c, s) :: after) = before ++ (c, f s) :: after := by
  induction before with
  | nil => exact if_pos rfl
  | cons e rest ih =>
    rw [List.map_cons, List.mem_cons, not_or] at h
    rw [List.cons_append, alterEntries, if_neg (Ne.symm h.1), ih h.2, List.cons_append]

/-- Entries of new coordinates, none of them twice, become entries of the table as
they are. So a table is rebuilt from its entries without a change. -/
theorem entries_addEntries {t : LockTable} {es : List (Coordinate × NameSet)}
    (h : (t.keys ++ es.map (·.1)).Nodup) : (t.addEntries es).entries = t.entries ++ es := by
  induction es generalizing t with
  | nil => simp
  | cons e rest ih =>
    obtain ⟨c, s⟩ := e
    have hc : c ∉ t.keys := by
      intro hMem
      exact (List.nodup_append.1 h).2.2 c hMem c (by simp) rfl
    -- a coordinate that the table does not have is added at the end, with just the names given
    have hStep : (t.addAll c s).entries = t.entries ++ [(c, s)] := by
      have hUnion : (∅ : NameSet) ∪ s = s := NameSet.ext fun n => by simp
      show alterEntries c (· ∪ s) t.entries = t.entries ++ [(c, s)]
      rw [alterEntries_of_not_mem hc, hUnion]
    have hKeys : (t.addAll c s).keys = t.keys ++ [c] := by
      rw [addAll, keys_alter, if_neg hc]
    rw [addEntries_cons, ih, hStep, List.append_assoc, List.singleton_append]
    rw [hKeys]
    simpa using h

end LockTable

-- ---------------------------------------------------------------------------
-- Locks
-- ---------------------------------------------------------------------------

namespace Lock

/-- A lock knows the names that lock a coordinate and those that have nothing to lock. -/
theorem mem_tracked {l : Lock} {n : Text} :
    n ∈ l.tracked ↔ n ∈ l.empty ∨ ∃ c, n ∈ l.locked.get c := by
  rw [tracked, NameSet.mem_union, LockTable.mem_names, or_comm]

end Lock

end Lockstep
