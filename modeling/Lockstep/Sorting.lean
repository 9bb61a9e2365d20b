/-!
# Lockstep — sorting

Insertion sort by a given order. It is stable: of two values that the order does
not tell apart, the earlier one stays in front.

* `upTo`                 — the order of a type with `<`.
* `insertBy`             — puts a value in front of the first one not before it.
* `sortBy`               — inserts the values one by one, from the last to the first.
* `perm_sortBy`          — sorting only reorders.
* `pairwise_sortBy`      — the result is in order.
* `sortBy_eq_of_pairwise` — what is in order already stays as it is.
* `filter_sortBy`         — values that the order does not tell apart keep theirs.
-/

namespace Lockstep.Sorting

variable {α : Type} {le : α → α → Bool}

/-- Whether a value does not come after another one. -/
def upTo [LT α] [DecidableLT α] (a b : α) : Bool := !decide (b < a)

/-- Puts a value in front of the first one that it may precede. -/
def insertBy (le : α → α → Bool) (x : α) : List α → List α
  | [] => [x]
  | y :: rest => if le x y then x :: y :: rest else y :: insertBy le x rest

/-- The values in order; those the order does not tell apart keep their places. -/
def sortBy (le : α → α → Bool) (xs : List α) : List α :=
  xs.foldr (insertBy le) []

@[simp] theorem sortBy_nil : sortBy le [] = [] := rfl

@[simp] theorem sortBy_cons (x : α) (xs : List α) :
    sortBy le (x :: xs) = insertBy le x (sortBy le xs) := rfl

-- ---------------------------------------------------------------------------
-- Nothing is lost or added
-- ---------------------------------------------------------------------------

theorem perm_insertBy (x : α) (ys : List α) : (insertBy le x ys).Perm (x :: ys) := by
  induction ys with
  | nil => exact .refl _
  | cons y rest ih =>
    simp only [insertBy]
    split
    · exact .refl _
    · exact (ih.cons y).trans (.swap x y rest)

theorem perm_sortBy (xs : List α) : (sortBy le xs).Perm xs := by
  induction xs with
  | nil => exact .refl _
  | cons x xs ih => exact (perm_insertBy x _).trans (ih.cons x)

@[simp] theorem mem_sortBy {x : α} {xs : List α} : x ∈ sortBy le xs ↔ x ∈ xs :=
  (perm_sortBy xs).mem_iff

-- ---------------------------------------------------------------------------
-- The result is in order
-- ---------------------------------------------------------------------------

theorem pairwise_insertBy (total : ∀ a b, le a b ∨ le b a)
    (trans : ∀ a b c, le a b → le b c → le a c) (x : α) {ys : List α}
    (h : ys.Pairwise fun a b => le a b) : (insertBy le x ys).Pairwise fun a b => le a b := by
  induction ys with
  | nil => simp [insertBy]
  | cons y rest ih =>
    obtain ⟨hy, hRest⟩ := List.pairwise_cons.1 h
    simp only [insertBy]
    split
    · rename_i hxy
      refine List.pairwise_cons.2 ⟨fun z hz => ?_, h⟩
      rcases List.mem_cons.1 hz with rfl | hz
      · exact hxy
      · exact trans _ _ _ hxy (hy z hz)
    · rename_i hxy
      refine List.pairwise_cons.2 ⟨fun z hz => ?_, ih hRest⟩
      rcases List.mem_cons.1 ((perm_insertBy x rest).mem_iff.1 hz) with rfl | hz
      · exact (total z y).resolve_left hxy
      · exact hy z hz

theorem pairwise_sortBy (total : ∀ a b, le a b ∨ le b a)
    (trans : ∀ a b c, le a b → le b c → le a c) (xs : List α) :
    (sortBy le xs).Pairwise fun a b => le a b := by
  induction xs with
  | nil => exact .nil
  | cons x xs ih => exact pairwise_insertBy total trans x ih

theorem insertBy_eq_cons {x : α} {ys : List α} (h : ∀ y ∈ ys, le x y) :
    insertBy le x ys = x :: ys := by
  cases ys with
  | nil => rfl
  | cons y rest => simp [insertBy, h y List.mem_cons_self]

theorem sortBy_eq_of_pairwise {xs : List α} (h : xs.Pairwise fun a b => le a b) :
    sortBy le xs = xs := by
  induction xs with
  | nil => rfl
  | cons x xs ih =>
    obtain ⟨hx, hxs⟩ := List.pairwise_cons.1 h
    rw [sortBy_cons, ih hxs, insertBy_eq_cons hx]

-- ---------------------------------------------------------------------------
-- Values that the order does not tell apart
-- ---------------------------------------------------------------------------

variable {keep : α → Bool}

theorem filter_insertBy (h : ∀ a b, keep a → keep b → le a b) (x : α) (ys : List α) :
    (insertBy le x ys).filter keep = (x :: ys).filter keep := by
  induction ys with
  | nil => rfl
  | cons y rest ih =>
    simp only [insertBy]
    split
    · rfl
    · next hxy =>
      -- the value passes another one, so that not both of them are kept
      rw [List.filter_cons, ih]
      cases hx : keep x with
      | false => simp [List.filter_cons, hx]
      | true =>
        have hy : ¬ keep y = true := fun hy => hxy (h x y hx hy)
        simp [hx, hy]

/-- Sorting is stable: values none of which has to precede another stand in a row
as they did. -/
theorem filter_sortBy (h : ∀ a b, keep a → keep b → le a b) (xs : List α) :
    (sortBy le xs).filter keep = xs.filter keep := by
  induction xs with
  | nil => rfl
  | cons x xs ih => rw [sortBy_cons, filter_insertBy h, List.filter_cons, ih, ← List.filter_cons]

end Lockstep.Sorting
