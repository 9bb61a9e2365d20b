import Lockstep.NameSet

/-!
# Lockstep — values in order

Sorting by a key has the laws of a stable sort if the keys are in a linear order
(`pairwise_sortBy`, `filter_sortBy`), as texts and lists of texts are. A list in strictly increasing
order is known by its members (`eq_of_strict`), and sorting gives such a list if the
key tells the values apart (`strict_sortBy`).
-/

namespace Lockstep

namespace Sorting

section Linear

variable {κ : Type} [LT κ] [DecidableLT κ]

/-- The comparison that sorting is given: a value may stand before another unless
the other is strictly smaller. In this form it needs no law of the order. -/
theorem upTo_iff {a b : κ} : upTo a b = true ↔ ¬ b < a := by
  simp [upTo]

variable [LE κ] [Std.IsLinearOrder κ] [Std.LawfulOrderLT κ]

/-- In a linear order the comparison is `≤`, so that the laws which a stable sort
needs of its comparison (`upTo_total`, `upTo_trans`, `upTo_antisymm`) are those
of the order. -/
theorem upTo_iff_le {a b : κ} : upTo a b = true ↔ a ≤ b := by
  rw [upTo_iff, Std.not_lt]

/-- Of two keys one may always stand before the other, so that inserting never gets
stuck between them. -/
theorem upTo_total (a b : κ) : upTo a b = true ∨ upTo b a = true := by
  rw [upTo_iff_le, upTo_iff_le]
  exact Std.le_total

theorem upTo_trans (a b c : κ) (hab : upTo a b = true) (hbc : upTo b c = true) :
    upTo a c = true := by
  rw [upTo_iff_le] at hab hbc ⊢
  exact Std.le_trans hab hbc

/-- Two keys that may stand either way round are equal. This is what turns the weak
order of a sorted list into a strict one, once the key tells the values apart. -/
theorem upTo_antisymm {a b : κ} (hab : upTo a b = true) (hba : upTo b a = true) : a = b := by
  rw [upTo_iff_le] at hab hba
  exact Std.le_antisymm hab hba

variable {α : Type} {key : α → κ}

/-- A list that is sorted by a key is in order by this key, whatever else its values hold. -/
theorem pairwise_sortBy_key (key : α → κ) (xs : List α) :
    (sortBy (fun a b => upTo (key a) (key b)) xs).Pairwise fun a b => upTo (key a) (key b) = true :=
  pairwise_sortBy (fun a b => upTo_total (key a) (key b))
    (fun a b c => upTo_trans (key a) (key b) (key c)) xs

/-- Sorted values that the key tells apart stand in strictly increasing order: no two of them are
the same, so that no two have the same key, and the weak order of the sort leaves nothing but `<`.
-/
theorem strict_sortBy_key {xs : List α} (hNodup : xs.Nodup)
    (hKey : ∀ a ∈ xs, ∀ b ∈ xs, key a = key b → a = b) :
    (sortBy (fun a b => upTo (key a) (key b)) xs).Pairwise fun a b => key a < key b := by
  have hne : (sortBy (fun a b => upTo (key a) (key b)) xs).Pairwise (· ≠ ·) :=
    (perm_sortBy xs).symm.nodup hNodup
  refine (List.Pairwise.and hne (pairwise_sortBy_key key xs)).imp_of_mem ?_
  intro a b ha hb ⟨hab, hle⟩
  -- if neither key is below the other they are equal, and the key tells `a` from `b`
  by_cases hlt : key a < key b
  · exact hlt
  · have heq := upTo_antisymm hle (upTo_iff.2 hlt)
    exact absurd (hKey a (mem_sortBy.1 ha) b (mem_sortBy.1 hb) heq) hab

end Linear

end Sorting

namespace Text

open Sorting (upTo)

/-- Names in strictly increasing order are sorted. A `NameSet` lists its names so, and sorting them
before they are written changes nothing. -/
theorem sort_eq_self {ts : List Text} (h : ts.Pairwise (· < ·)) : sort ts = ts :=
  Sorting.sortBy_eq_of_pairwise (h.imp fun hab => Sorting.upTo_iff.2 (List.lt_asymm hab))

section SortBy

variable {α : Type} {key : α → Text}

theorem perm_sortBy (key : α → Text) (xs : List α) : (sortBy key xs).Perm xs :=
  Sorting.perm_sortBy xs

theorem pairwise_sortBy (key : α → Text) (xs : List α) :
    (sortBy key xs).Pairwise fun a b => upTo (key a) (key b) = true :=
  Sorting.pairwise_sortBy_key key xs

/-- A list whose texts are strictly increasing is left as it is. So entries that
were read from a file in order are written in the same order again. -/
theorem sortBy_eq_self {xs : List α} (h : xs.Pairwise fun a b => key a < key b) :
    sortBy key xs = xs :=
  Sorting.sortBy_eq_of_pairwise (h.imp fun hab => Sorting.upTo_iff.2 (List.lt_asymm hab))

/-- Values with one text keep their order: the sort is stable. Coordinates with
colons in them may share their text, and are then written in the order in which
they were met. -/
theorem filter_sortBy (key : α → Text) (xs : List α) (t : Text) :
    (sortBy key xs).filter (fun a => key a = t) = xs.filter fun a => key a = t := by
  refine Sorting.filter_sortBy (fun a b ha hb => ?_) xs
  rw [Sorting.upTo_iff, of_decide_eq_true ha, of_decide_eq_true hb]
  exact List.lt_irrefl t

/-- Lists in strictly increasing order are equal if they have the same members. This
is how two lock files are seen to have the same lines: it is enough to know which
entries each of them has. -/
theorem eq_of_strict {xs ys : List α} (hxs : xs.Pairwise fun a b => key a < key b)
    (hys : ys.Pairwise fun a b => key a < key b) (h : ∀ a, a ∈ xs ↔ a ∈ ys) : xs = ys := by
  have hne : ∀ {a b : α}, key a < key b → a ≠ b := fun hlt heq =>
    List.lt_irrefl _ (heq ▸ hlt)
  have hPerm : xs.Perm ys := by
    rw [List.perm_ext_iff_of_nodup (hxs.imp hne) (hys.imp hne)]
    exact h
  refine hPerm.eq_of_pairwise ?_ hxs hys
  intro a b _ _ hab hba
  exact absurd hba (List.lt_asymm hab)

/-- What is sorted by a text that tells the values apart is in strictly increasing
order, as `eq_of_strict` wants it. -/
theorem strict_sortBy {xs : List α} (hNodup : xs.Nodup)
    (hKey : ∀ a ∈ xs, ∀ b ∈ xs, key a = key b → a = b) :
    (sortBy key xs).Pairwise fun a b => key a < key b :=
  Sorting.strict_sortBy_key hNodup hKey

end SortBy

end Text

end Lockstep
