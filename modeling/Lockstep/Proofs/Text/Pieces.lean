import Lockstep.Text.Basic
import Mathlib.Data.List.TakeWhile

/-!
# Lockstep — pieces of texts

What splitting, joining and trimming do to each other.

* Splitting at a separator and joining with it undo each other
  (`splitOn_joinWith`, `joinWith_splitOn`), as long as no piece holds the
  separator.
* What is trimmed has no blank at its ends, and trimming leaves such a text as
  it is (`trim_trim`). A text is **trimmed** if it is its own `trim`.
* Dropping a last character changes exactly the texts that end in it.
-/

namespace Lockstep

namespace Text

-- ---------------------------------------------------------------------------
-- Splitting and joining
-- ---------------------------------------------------------------------------

/-- Splitting is the one of the standard library, whose lemmas apply from here on.
The definition is a recursion of its own so that it can be run by `decide`. -/
theorem splitOn_eq (sep : Letter) (t : Text) : splitOn sep t = List.splitOn sep t := by
  induction t with
  | nil => simp [splitOn]
  | cons c rest ih =>
    rw [splitOn, List.splitOn_cons_eq_if_modifyHead, ← ih]
    have hne := splitOn_ne_nil sep rest
    by_cases hc : c = sep
    · simp [hc]
    · rw [if_neg hc, if_neg (by simpa using hc)]
      -- there is always a first piece, to which the letter is added
      cases hs : splitOn sep rest with
      | nil => exact absurd hs hne
      | cons piece pieces => rfl

/-- The pieces of a text, joined with the separator, are the text again, whatever it holds. -/
@[simp] theorem joinWith_splitOn (sep : Letter) (t : Text) : joinWith [sep] (splitOn sep t) = t := by
  rw [splitOn_eq]
  exact List.intercalate_splitOn sep

/-- Two texts with the same pieces are the same text, since the pieces can be joined again. -/
theorem splitOn_injective {sep : Letter} {t u : Text} (h : splitOn sep t = splitOn sep u) : t = u := by
  rw [← joinWith_splitOn sep t, h, joinWith_splitOn]

/-- Joined pieces come back when the text is split, if none of them holds the
separator. There must be at least one: no pieces and one empty piece are joined to
the same text. -/
theorem splitOn_joinWith {sep : Letter} {pieces : List Text} (hne : pieces ≠ [])
    (h : ∀ piece ∈ pieces, sep ∉ piece) : splitOn sep (joinWith [sep] pieces) = pieces := by
  rw [splitOn_eq]
  exact List.splitOn_intercalate sep h hne

/-- A text without the separator is its own only piece. -/
theorem splitOn_of_not_mem {sep : Letter} {t : Text} (h : sep ∉ t) : splitOn sep t = [t] := by
  rw [splitOn_eq]
  exact List.splitOn_eq_singleton h

/-- The first separator of a text ends its first piece. -/
theorem splitOn_append_cons {sep : Letter} {t : Text} (h : sep ∉ t) (rest : Text) :
    splitOn sep (t ++ sep :: rest) = t :: splitOn sep rest := by
  rw [splitOn_eq, splitOn_eq]
  exact List.splitOn_append_cons_self_of_not_mem h rest

/-- Splitting goes through an occurrence of the separator: the pieces on both sides
are those of the two texts. So the lines of a text that was put together are the
lines of its parts. -/
theorem splitOn_append (sep : Letter) (t rest : Text) :
    splitOn sep (t ++ sep :: rest) = splitOn sep t ++ splitOn sep rest := by
  rw [splitOn_eq, splitOn_eq, splitOn_eq, List.splitOn_append_cons_self]

/-- A separator at the end makes one more piece, which is empty. Every text that
ends in a line feed has this empty last line. -/
theorem splitOn_append_singleton (sep : Letter) (t : Text) :
    splitOn sep (t ++ [sep]) = splitOn sep t ++ [[]] :=
  splitOn_append sep t []

/-- There is one piece more than there are separators, so that line numbers can be
counted by line feeds. -/
theorem length_splitOn (sep : Letter) (t : Text) : (splitOn sep t).length = t.count sep + 1 := by
  induction t with
  | nil => rfl
  | cons c rest ih =>
    rw [splitOn, List.count_cons]
    by_cases hc : c = sep
    · simp [hc, ih]
    · have hne := splitOn_ne_nil sep rest
      cases hs : splitOn sep rest with
      | nil => exact absurd hs hne
      | cons piece pieces =>
        rw [hs] at ih
        simpa [hc, consHead] using ih

/-- No piece holds the separator. The induction follows `splitOn`: a letter that is
no separator goes to the front of the first piece of the rest, and the others are
not touched. -/
theorem not_mem_of_mem_splitOn {sep : Letter} {t piece : Text} (h : piece ∈ splitOn sep t) :
    sep ∉ piece := by
  induction t generalizing piece with
  | nil =>
    rw [List.mem_singleton.1 h]
    exact List.not_mem_nil
  | cons c rest ih =>
    rw [splitOn] at h
    by_cases hc : c = sep
    · -- a separator begins a new piece, which is empty so far
      rw [if_pos hc, List.mem_cons] at h
      rcases h with rfl | h
      · exact List.not_mem_nil
      · exact ih h
    · rw [if_neg hc] at h
      cases hs : splitOn sep rest with
      | nil => exact absurd hs (splitOn_ne_nil sep rest)
      | cons first others =>
        rw [hs, consHead, List.mem_cons] at h
        rcases h with rfl | h
        · -- any other letter is added to the first piece
          intro hMem
          rcases List.mem_cons.1 hMem with heq | hMem
          · exact hc heq.symm
          · exact ih (by rw [hs]; exact List.mem_cons_self) hMem
        · exact ih (by rw [hs]; exact List.mem_cons_of_mem _ h)

/-- A letter of a joined text is the separator, or comes from one of the pieces. -/
theorem mem_joinWith {sep c : Letter} {pieces : List Text} (h : c ∈ joinWith [sep] pieces) :
    c = sep ∨ ∃ piece ∈ pieces, c ∈ piece := by
  induction pieces with
  | nil => exact absurd h List.not_mem_nil
  | cons first others ih =>
    -- no separator follows a single piece
    cases others with
    | nil => exact Or.inr ⟨first, List.mem_cons_self, by simpa [joinWith] using h⟩
    | cons second rest =>
      rw [joinWith, List.intercalate_cons_cons, List.append_assoc, List.mem_append] at h
      rcases h with h | h
      · exact Or.inr ⟨first, List.mem_cons_self, h⟩
      · rcases List.mem_append.1 h with h | h
        · exact Or.inl (List.mem_singleton.1 h)
        · rcases ih h with h | ⟨piece, hPiece, h⟩
          · exact Or.inl h
          · exact Or.inr ⟨piece, List.mem_cons_of_mem _ hPiece, h⟩

/-- What a piece holds is held by the joined text, too. -/
theorem mem_joinWith_of_mem {sep c : Letter} {pieces : List Text} {piece : Text}
    (h : piece ∈ pieces) (hc : c ∈ piece) : c ∈ joinWith [sep] pieces := by
  induction pieces with
  | nil => exact absurd h List.not_mem_nil
  | cons first others ih =>
    cases others with
    | nil =>
      rw [List.mem_singleton] at h
      subst h
      simpa [joinWith] using hc
    | cons second rest =>
      -- the first piece, the separator, and the others joined
      rw [joinWith, List.intercalate_cons_cons]
      rcases List.mem_cons.1 h with rfl | h
      · simp [hc]
      · exact List.mem_append_right _ (ih h)

/-- The letters of a piece are letters of the text. What is known of all
letters of a file is therefore known of each of its lines, and of each field
and name on a line. -/
theorem mem_of_mem_piece {sep c : Letter} {t piece : Text} (h : piece ∈ splitOn sep t)
    (hc : c ∈ piece) : c ∈ t := by
  rw [← joinWith_splitOn sep t]
  exact mem_joinWith_of_mem h hc

/-- A joined text begins as its first piece does, unless that is empty: then the
separator comes first. -/
theorem head?_joinWith {sep : Letter} {first : Text} (hFirst : first ≠ []) (others : List Text) :
    (joinWith [sep] (first :: others)).head? = first.head? := by
  cases others with
  | nil => simp [joinWith]
  | cons second rest =>
    obtain ⟨c, below, rfl⟩ := List.exists_cons_of_ne_nil hFirst
    rw [joinWith, List.intercalate_cons_cons]
    rfl

/-- A joined text ends as its last piece does, unless that is empty. The induction
goes over the pieces in front, none of which matters to the end. -/
theorem getLast?_joinWith {sep : Letter} {pieces : List Text} {last : Text}
    (h : pieces.getLast? = some last) (hLast : last ≠ []) :
    (joinWith [sep] pieces).getLast? = last.getLast? := by
  induction pieces with
  | nil => simp at h
  | cons first others ih =>
    cases others with
    | nil =>
      rw [List.getLast?_singleton, Option.some_inj] at h
      subst h
      simp [joinWith]
    | cons second rest =>
      rw [List.getLast?_cons_cons] at h
      have hRest := ih h
      rw [joinWith, List.intercalate_cons_cons, List.getLast?_append]
      rw [joinWith] at hRest
      rw [hRest]
      -- the last piece is not empty, so that the text ends as it does
      cases hl : last.getLast? with
      | none => exact absurd (List.getLast?_eq_none_iff.1 hl) hLast
      | some c => rfl

-- ---------------------------------------------------------------------------
-- Trimming
-- ---------------------------------------------------------------------------

section Trim

variable {drop : Letter → Bool}

/-- Trimming only leaves letters out; those that stay keep their order. -/
theorem trimBy_sublist (drop : Letter → Bool) (t : Text) : (trimBy drop t).Sublist t := by
  have hEnd : (trimEndBy drop (t.dropWhile drop)).Sublist (t.dropWhile drop) := by
    rw [trimEndBy, ← List.reverse_sublist, List.reverse_reverse]
    exact List.dropWhile_sublist drop
  exact hEnd.trans (List.dropWhile_sublist drop)

theorem mem_of_mem_trimBy {c : Letter} {t : Text} (h : c ∈ trimBy drop t) : c ∈ t :=
  (trimBy_sublist drop t).subset h

/-- A text with no letter of the class at its ends stays as it is. Only the two ends
are looked at, for a letter of the class in the middle is never reached. -/
theorem trimBy_eq_self {t : Text} (hFirst : ∀ c, t.head? = some c → drop c = false)
    (hLast : ∀ c, t.getLast? = some c → drop c = false) : trimBy drop t = t := by
  have hStart : t.dropWhile drop = t := by
    cases t with
    | nil => rfl
    | cons c rest => simp [hFirst c rfl]
  have hEnd : t.reverse.dropWhile drop = t.reverse := by
    cases hr : t.reverse with
    | nil => rfl
    | cons c rest =>
      have hc : t.getLast? = some c := by rw [List.getLast?_eq_head?_reverse, hr, List.head?_cons]
      simp [hLast c hc]
  rw [trimBy, hStart, trimEndBy, hEnd, List.reverse_reverse]

/-- A joined text stays as it is if none of its pieces is empty or has a letter of
the class. The separator may be of the class: it never stands at an end. -/
theorem trimBy_joinWith {sep : Letter} {pieces : List Text} (hne : ∀ piece ∈ pieces, piece ≠ [])
    (hKept : ∀ piece ∈ pieces, ∀ c ∈ piece, drop c = false) :
    trimBy drop (joinWith [sep] pieces) = joinWith [sep] pieces := by
  cases pieces with
  | nil => rfl
  | cons first others =>
    refine trimBy_eq_self (fun c hc => ?_) fun c hc => ?_
    · -- the first letter is that of the first piece
      rw [head?_joinWith (hne first List.mem_cons_self)] at hc
      exact hKept first List.mem_cons_self c (List.mem_of_head? hc)
    · -- the last letter is that of the last piece
      obtain ⟨last, hLast⟩ : ∃ last, (first :: others).getLast? = some last :=
        ⟨_, List.getLast?_cons⟩
      have hMem := List.mem_of_getLast? hLast
      rw [getLast?_joinWith hLast (hne last hMem)] at hc
      exact hKept last hMem c (List.mem_of_getLast? hc)

/-- Letters of the class in front of a text do not matter to what is left of it. -/
theorem trimBy_append_left {before : Text} (h : ∀ c ∈ before, drop c = true) (t : Text) :
    trimBy drop (before ++ t) = trimBy drop t := by
  rw [trimBy, List.dropWhile_append_of_pos h, ← trimBy]

/-- Letters of the class behind a text do not matter when its end is trimmed. -/
theorem trimEndBy_append {after : Text} (h : ∀ c ∈ after, drop c = true) (t : Text) :
    trimEndBy drop (t ++ after) = trimEndBy drop t := by
  rw [trimEndBy, List.reverse_append,
    List.dropWhile_append_of_pos fun c hc => h c (List.mem_reverse.1 hc), ← trimEndBy]

/-- Nor do they when both ends are trimmed. If the text has nothing but letters of
the class, what stands behind it is dropped from the front. -/
theorem trimBy_append_right {after : Text} (h : ∀ c ∈ after, drop c = true) (t : Text) :
    trimBy drop (t ++ after) = trimBy drop t := by
  rw [trimBy, trimBy, List.dropWhile_append]
  split
  · next hNil =>
    rw [List.dropWhile_eq_nil_iff.2 h, List.isEmpty_iff.1 hNil]
  · exact trimEndBy_append h _

/-- What is left after letters were dropped begins with none of the class. -/
theorem head?_dropWhile {t : Text} {c : Letter} (h : (t.dropWhile drop).head? = some c) :
    drop c = false := by
  have := List.head?_dropWhile_not drop t
  rwa [h] at this

/-- What is left after trimming ends in no letter of the class, for the end is trimmed last. -/
theorem getLast?_trimBy {t : Text} {c : Letter} (h : (trimBy drop t).getLast? = some c) :
    drop c = false := by
  rw [trimBy, trimEndBy, List.getLast?_reverse] at h
  exact head?_dropWhile h

/-- Nor does it begin with one, although the end is trimmed after the start. -/
theorem head?_trimBy {t : Text} {c : Letter} (h : (trimBy drop t).head? = some c) :
    drop c = false := by
  -- what is left after both ends are trimmed begins as what is left after the first end is
  have hPrefix : trimBy drop t <+: t.dropWhile drop := by
    rw [trimBy, trimEndBy, ← List.reverse_suffix, List.reverse_reverse]
    exact List.dropWhile_suffix drop
  obtain ⟨rest, hRest⟩ := hPrefix
  apply head?_dropWhile (t := t)
  rw [← hRest, List.head?_append, h, Option.some_or]

theorem trimBy_trimBy (t : Text) : trimBy drop (trimBy drop t) = trimBy drop t :=
  trimBy_eq_self (fun _ => head?_trimBy) fun _ => getLast?_trimBy

/-- Nothing is left iff all letters are of the class: otherwise the first one that
is not stays, with all that stands between it and the last. -/
theorem trimBy_eq_nil_iff {t : Text} : trimBy drop t = [] ↔ ∀ c ∈ t, drop c = true := by
  rw [trimBy, trimEndBy, List.reverse_eq_nil_iff, List.dropWhile_eq_nil_iff]
  simp only [List.mem_reverse]
  constructor
  · intro h
    cases hStart : t.dropWhile drop with
    | nil => exact List.dropWhile_eq_nil_iff.1 hStart
    | cons c rest =>
      have hFirst : drop c = false := head?_dropWhile (t := t) (by rw [hStart, List.head?_cons])
      have hAll : drop c = true := h c (by rw [hStart]; exact List.mem_cons_self)
      exact absurd (hFirst.symm.trans hAll) (by decide)
  · exact fun h c hc => h c ((List.dropWhile_sublist drop).subset hc)

end Trim

/-- A text is blank iff trimming leaves nothing of it. The update asks the first,
the checks of a snapshot ask the second. -/
theorem trim_eq_nil_iff {t : Text} : t.trim = [] ↔ t.isAllBlank = true := by
  rw [trim, trimBy_eq_nil_iff, isAllBlank, List.all_eq_true]

/-- A trimmed text has nothing to trim. Tokens are stored trimmed and compared with
texts that were trimmed when they were read. -/
@[simp] theorem trim_trim (t : Text) : t.trim.trim = t.trim := trimBy_trimBy t

/-- No blank ends a trimmed text; in particular no carriage return and no line feed does. -/
theorem getLast?_of_trim_eq_self {t : Text} {c : Letter} (ht : t.trim = t)
    (h : t.getLast? = some c) : isBlank c = false := by
  rw [← ht] at h
  exact getLast?_trimBy h

-- ---------------------------------------------------------------------------
-- One character for another
-- ---------------------------------------------------------------------------

/-- Nothing is left of a letter that was replaced, unless it was replaced by itself. -/
theorem not_mem_replaceChar {old new : Letter} (hne : old ≠ new) (t : Text) :
    old ∉ replaceChar old new t := by
  intro hOld
  obtain ⟨c, -, hc⟩ := List.mem_map.1 hOld
  split at hc
  · exact hne hc.symm
  · next hOther => exact hOther hc

theorem replaceChar_eq_self {old new : Letter} {t : Text} (hOld : old ∉ t) :
    replaceChar old new t = t := by
  refine (List.map_congr_left fun c hc => ?_).trans (List.map_id t)
  have hne : c ≠ old := fun heq => hOld (heq ▸ hc)
  exact if_neg hne

/-- Where no piece has the letter, only the separators may change: this is how the
path of a project becomes the path of a directory. -/
theorem replaceChar_joinWith {old new sep : Letter} {pieces : List Text}
    (h : ∀ piece ∈ pieces, old ∉ piece) :
    replaceChar old new (joinWith [sep] pieces) =
      joinWith [if sep = old then new else sep] pieces := by
  induction pieces with
  | nil => rfl
  | cons first others ih =>
    have hFirst : replaceChar old new first = first :=
      replaceChar_eq_self (h first List.mem_cons_self)
    cases others with
    | nil => simpa [joinWith] using hFirst
    | cons second rest =>
      have hRest := ih fun piece hPiece => h piece (List.mem_cons_of_mem first hPiece)
      simp only [joinWith, replaceChar, List.intercalate_cons_cons, List.map_append] at hFirst hRest ⊢
      rw [hFirst, hRest]
      rfl

-- ---------------------------------------------------------------------------
-- A last character
-- ---------------------------------------------------------------------------

/-- Dropping a last letter leaves a text alone iff the text does not end in it;
otherwise it is shorter. So a comment that is read back as it was written did not
end in a carriage return. -/
theorem dropLastChar_eq_self_iff {c : Letter} {t : Text} :
    dropLastChar c t = t ↔ t.getLast? ≠ some c := by
  rw [dropLastChar]
  by_cases h : t.getLast? = some c
  · rw [if_pos h]
    have hne : t ≠ [] := by
      rintro rfl
      simp at h
    have hLen : t.dropLast.length = t.length - 1 := List.length_dropLast
    have hPos := List.length_pos_iff.2 hne
    -- a text that does end in the letter loses it, and cannot be what is left
    constructor
    · intro heq
      rw [heq] at hLen
      omega
    · exact fun hn => absurd h hn
  · simp [h]

/-- What is left ends in the letter iff the text ends in two of them, since only one
is dropped. With two carriage returns at the end of a comment the second is still
there after the line has been read. -/
theorem getLast?_dropLastChar_iff {c : Letter} {t : Text} :
    (dropLastChar c t).getLast? = some c ↔ [c, c] <:+ t := by
  constructor
  · intro h
    by_cases hLast : t.getLast? = some c
    · obtain ⟨ys, rfl⟩ := List.getLast?_eq_some_iff.1 hLast
      rw [dropLastChar, if_pos hLast, List.dropLast_concat] at h
      obtain ⟨zs, rfl⟩ := List.getLast?_eq_some_iff.1 h
      exact ⟨zs, by simp⟩
    · -- nothing was dropped, and the text does not end in the character
      rw [dropLastChar, if_neg hLast] at h
      exact absurd h hLast
  · rintro ⟨zs, rfl⟩
    have hSplit : zs ++ [c, c] = (zs ++ [c]) ++ [c] := by simp
    rw [hSplit, dropLastChar, if_pos List.getLast?_concat, List.dropLast_concat]
    exact List.getLast?_concat

/-- What is left is the beginning of the text. -/
theorem dropLastChar_prefix_self (c : Letter) (t : Text) : dropLastChar c t <+: t := by
  rw [dropLastChar]
  split
  · exact List.dropLast_prefix t
  · exact List.prefix_refl t

theorem mem_of_mem_dropLastChar {c x : Letter} {t : Text} (h : x ∈ dropLastChar c t) : x ∈ t :=
  (dropLastChar_prefix_self c t).subset h

end Text

end Lockstep
