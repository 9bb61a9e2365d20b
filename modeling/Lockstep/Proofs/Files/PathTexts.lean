import Lockstep.Files.Path
import Lockstep.Proofs.Text.Pieces

/-!
# Lockstep — the texts of paths

A text is read as a path slash by slash: the names of `t/s` are those of `t`, then those
of `s`, a piece without slashes is a name unless it is empty or a single dot, and the
slashes at the start make the anchor (`reads_ofText`). The text of a path is read as
that path (`ofText_text`), so that every path is the path of a text.

Joining with a relative path appends its names; joining a path's directory with its
last name gives the path (`parent_join_name`), and so does joining any path with the
names that lead from it (`relativeTo?_eq_some_iff`, `join_ofText_joinWith`).
-/

namespace Lockstep

/-- No name of a path holds a slash, so that the names can be told apart again in its text. -/
theorem slash_not_mem_of_isPathName {n : Text} (h : isPathName n = true) : char '/' ∉ n := by
  simp only [isPathName, Bool.and_eq_true, Bool.not_eq_true', List.contains_eq_mem,
    decide_eq_false_iff_not] at h
  exact h.2

/-- No name of a path is empty. Two slashes in a row are read as one for this reason. -/
theorem ne_nil_of_isPathName {n : Text} (h : isPathName n = true) : n ≠ [] := by
  rintro rfl
  exact absurd h (by decide)

/-- A piece without slashes is a name unless it is empty or a single dot. Two dots
are a name like any other: paths are not simplified by them. -/
theorem isPathName_iff {n : Text} (h : char '/' ∉ n) : isPathName n = true ↔ ¬ (n = [] ∨ n = [char '.']) := by
  simp [isPathName, h]

namespace Path

variable {p q base : Path} {names : List Text}

/-- A path is known by its anchor and its names; that the names are proper is no data. -/
theorem eq_of_parts_eq (hAnchor : p.anchor = q.anchor) (hParts : p.parts = q.parts) : p = q := by
  cases p
  cases q
  simp only at hAnchor hParts
  subst hAnchor hParts
  rfl

/-- Names that are proper are added to a path as they are. Others would be left out. -/
theorem parts_append (h : ∀ n ∈ names, isPathName n = true) :
    (p.append names).parts = p.parts ++ names :=
  congrArg (p.parts ++ ·) (List.filter_eq_self.2 h)

/-- All names of a path are proper, by the invariant that the structure carries. -/
theorem isPathName_of_mem_parts {n : Text} (h : n ∈ p.parts) : isPathName n = true :=
  List.all_eq_true.1 p.proper n h

-- ---------------------------------------------------------------------------
-- Reading
-- ---------------------------------------------------------------------------

/-- How texts are read as paths. -/
structure Reads (read : Text → Path) : Prop where
  /-- Names in a row, wherever the row is broken; so a slash more, or less, makes no name. -/
  slash : ∀ t s, (read (t ++ char '/' :: s)).parts = (read t).parts ++ (read s).parts
  /-- Nothing and a single dot are no names; all else is, also two dots. -/
  piece : ∀ n, char '/' ∉ n → (read n).parts = if n = [] ∨ n = [char '.'] then [] else [n]
  /-- One slash at the start is the root, as three or more are, but two are another one. -/
  anchor : ∀ count s, s.head? ≠ some (char '/') →
    (read (List.replicate count (char '/') ++ s)).anchor =
      if count = 0 then .relative else if count = 2 then .doubleRoot else .root

/-- The names of a text that is read as a path are its pieces between slashes,
without those that are empty or a single dot. -/
theorem parts_ofText (t : Text) : (ofText t).parts = (t.splitOn (char '/')).filter isPathName := rfl

/-- The anchor of a text that is read as a path is decided by the slashes it starts with. -/
theorem anchor_ofText (t : Text) : (ofText t).anchor = anchorOf t := rfl

/-- The names of `t/s` are those of `t`, then those of `s`. It does not matter where
a text is broken, so that a slash more, or less, between two names makes no
difference. -/
theorem parts_ofText_slash (t s : Text) :
    (ofText (t ++ char '/' :: s)).parts = (ofText t).parts ++ (ofText s).parts := by
  rw [parts_ofText, parts_ofText, parts_ofText, Text.splitOn_append, List.filter_append]

/-- A piece without slashes is one name, or none at all. -/
theorem parts_ofText_piece {n : Text} (h : char '/' ∉ n) :
    (ofText n).parts = if n = [] ∨ n = [char '.'] then [] else [n] := by
  rw [parts_ofText, Text.splitOn_of_not_mem h]
  by_cases hName : n = [] ∨ n = [char '.']
  · rw [if_pos hName, List.filter_cons_of_neg fun h' => (isPathName_iff h).1 h' hName]
    rfl
  · rw [if_neg hName, List.filter_cons_of_pos ((isPathName_iff h).2 hName)]
    rfl

/-- The slashes at the start of a text: none make a relative path, two a root of
their own, and one, three or more the usual root. What follows does not begin with a
slash, or it would have to be counted. -/
theorem anchorOf_replicate (count : Nat) {s : Text} (h : s.head? ≠ some (char '/')) :
    anchorOf (List.replicate count (char '/') ++ s) =
      if count = 0 then .relative else if count = 2 then .doubleRoot else .root := by
  match count, s with
  | 0, [] | 1, [] | 2, [] => rfl
  | 0, c :: _ | 1, c :: _ | 2, c :: _ =>
    have hc : c ≠ char '/' := fun heq => h (by rw [heq]; rfl)
    simp [anchorOf, List.replicate, hc]
  | n + 3, _ => rfl

/-- Texts are read as paths in the way that `Reads` describes, which says nothing of
how they are read. -/
theorem reads_ofText : Reads ofText where
  slash := parts_ofText_slash
  piece _ := parts_ofText_piece
  anchor count _ := anchorOf_replicate count

/-- Slashes at the start make no names. -/
theorem parts_ofText_replicate (count : Nat) (s : Text) :
    (ofText (List.replicate count (char '/') ++ s)).parts = (ofText s).parts := by
  induction count with
  | zero => rfl
  | succ count ih =>
    rw [List.replicate_succ, List.cons_append, ← ih]
    exact parts_ofText_slash [] _

-- ---------------------------------------------------------------------------
-- Names in a row
-- ---------------------------------------------------------------------------

/-- Names that are written with slashes between them are read again as these names.
The case without names is the empty text, which has none. -/
theorem parts_ofText_joinWith (h : ∀ n ∈ names, isPathName n = true) :
    (ofText (Text.joinWith [char '/'] names)).parts = names := by
  cases names with
  | nil => rfl
  | cons first others =>
    rw [parts_ofText,
      Text.splitOn_joinWith (by simp) fun n hn => slash_not_mem_of_isPathName (h n hn),
      List.filter_eq_self.2 h]

/-- Names that are written with slashes between them do not begin with a slash. -/
theorem head?_joinWith_ne_slash (h : ∀ n ∈ names, isPathName n = true) :
    (Text.joinWith [char '/'] names).head? ≠ some (char '/') := by
  cases names with
  | nil => simp [Text.joinWith]
  | cons first others =>
    have hFirst := h first List.mem_cons_self
    rw [Text.head?_joinWith (ne_nil_of_isPathName hFirst)]
    exact fun hSlash => slash_not_mem_of_isPathName hFirst (List.mem_of_head? hSlash)

/-- The text of a path is read as the path, so that every path can be given by a
text, and two paths with the same text are the same. The empty relative path is the
one that is written with a dot. -/
theorem ofText_text (p : Path) : ofText p.text = p := by
  have hNames : ∀ n ∈ p.parts, isPathName n = true := fun n => isPathName_of_mem_parts
  have hHead := head?_joinWith_ne_slash hNames
  rw [text]
  split
  · -- the empty relative path is written as a dot, which is no name
    next hHere => exact eq_of_parts_eq hHere.1.symm hHere.2.symm
  · -- all others are written with the slashes of the anchor, and then the names
    refine eq_of_parts_eq ?_ ?_
    · rw [anchor_ofText]
      cases p.anchor with
      | relative => exact anchorOf_replicate 0 hHead
      | root => exact anchorOf_replicate 1 hHead
      | doubleRoot => exact anchorOf_replicate 2 hHead
    · refine Eq.trans ?_ (parts_ofText_joinWith hNames)
      cases p.anchor with
      | relative => rfl
      | root => exact parts_ofText_replicate 1 _
      | doubleRoot => exact parts_ofText_replicate 2 _

/-- Only a text that starts with a slash is read as a path from a root. -/
theorem anchorOf_eq_relative_iff (t : Text) : anchorOf t = .relative ↔ t.head? ≠ some (char '/') := by
  fun_cases anchorOf t with
  | case1 => simp
  | case2 => simp
  | case3 => simp
  | case4 t _ _ hSlash =>
    refine iff_of_true rfl fun h => ?_
    obtain ⟨rest, rfl⟩ := List.head?_eq_some_iff.1 h
    exact hSlash rest rfl

/-- The text of a path starts with a slash unless the path is relative. This is how
the working directory comes in when the path is followed. -/
theorem head?_text_ne_slash_iff (p : Path) : p.text.head? ≠ some (char '/') ↔ p.anchor = .relative := by
  rw [← anchorOf_eq_relative_iff, ← anchor_ofText, ofText_text]

/-- A letter other than the slash and the dot is in the text of a path iff it is in
one of the names. The dot may also be that of the empty path. -/
theorem mem_text_iff {c : Letter} (hDot : c ≠ char '.') (hSlash : c ≠ char '/') :
    c ∈ p.text ↔ ∃ n ∈ p.parts, c ∈ n := by
  rw [text]
  split
  · next hHere => simp [hHere.2, hDot]
  · constructor
    · intro hc
      rcases List.mem_append.1 hc with hAnchor | hParts
      · cases h : p.anchor <;> simp [h, Anchor.text, hSlash] at hAnchor
      · exact (Text.mem_joinWith hParts).resolve_left hSlash
    · rintro ⟨n, hn, hc⟩
      exact List.mem_append_right _ (Text.mem_joinWith_of_mem hn hc)

-- ---------------------------------------------------------------------------
-- Joining
-- ---------------------------------------------------------------------------

/-- The names of a relative path with slashes between them are its text, but for the
empty path: its text is a dot, and it has no names. -/
theorem joinWith_parts (h : p.anchor = .relative) :
    Text.joinWith [char '/'] p.parts = if p = here then [] else p.text := by
  split
  · next hHere =>
    rw [hHere]
    rfl
  · next hne =>
    have hParts : p.parts ≠ [] := fun hNil => hne (eq_of_parts_eq h hNil)
    rw [text, if_neg fun hEmpty => hParts hEmpty.2, h]
    rfl

theorem append_nil (p : Path) : p.append [] = p :=
  eq_of_parts_eq rfl (List.append_nil p.parts)

/-- Joining with a relative path appends its names. A path from a root would take
the place of the first. -/
theorem join_of_relative (h : q.anchor = .relative) : p.join q = p.append q.parts :=
  if_pos h

/-- Joining with a text of names and slashes appends these names. -/
theorem join_ofText_joinWith (p : Path) (h : ∀ n ∈ names, isPathName n = true) :
    p.join (ofText (Text.joinWith [char '/'] names)) = p.append names := by
  rw [join_of_relative (anchorOf_replicate 0 (head?_joinWith_ne_slash h)), parts_ofText_joinWith h]

theorem join_ofText {n : Text} (p : Path) (h : isPathName n = true) :
    p.join (ofText n) = p.append [n] := by
  have hOne : p.join (ofText (Text.joinWith [char '/'] [n])) = p.append [n] :=
    join_ofText_joinWith p (by simpa using h)
  rwa [Text.joinWith, List.intercalate_singleton] at hOne

theorem parts_parent (p : Path) : p.parent.parts = p.parts.dropLast := rfl

/-- The last name leads from the directory of a path to the path. Without
names there is no last one; the path is then its own directory, and is joined
with nothing. -/
theorem parent_join_name (p : Path) : p.parent.join (ofText p.name) = p := by
  rw [name]
  cases hLast : p.parts.getLast? with
  | none =>
    have hParts : p.parts = [] := List.getLast?_eq_none_iff.1 hLast
    have hParent : p.parent = p := eq_of_parts_eq rfl (by rw [parts_parent, hParts]; rfl)
    rw [hParent]
    exact append_nil p
  | some last =>
    obtain ⟨above, hParts⟩ := List.getLast?_eq_some_iff.1 hLast
    have hName : isPathName last = true := isPathName_of_mem_parts (p := p) (by simp [hParts])
    rw [Option.getD_some, join_ofText _ hName]
    refine eq_of_parts_eq rfl ?_
    rw [parts_append (by simpa using hName), parts_parent, hParts, List.dropLast_concat]

/-- The names that lead from one path to another one below it: the anchors must be
the same, and the names of the first must come first in the second. Nothing is said
about a disk. -/
theorem relativeTo?_eq_some_iff :
    p.relativeTo? base = some names ↔
      p.anchor = base.anchor ∧ p.parts = base.parts ++ names := by
  rw [relativeTo?]
  constructor
  · intro h
    split at h
    · next hBelow =>
      obtain ⟨names', hNames'⟩ := hBelow.2
      rw [← hNames', List.drop_left, Option.some.injEq] at h
      exact ⟨hBelow.1, by rw [← hNames', h]⟩
    · simp at h
  · rintro ⟨hAnchor, hParts⟩
    rw [if_pos ⟨hAnchor, hParts ▸ List.prefix_append _ _⟩, hParts, List.drop_left]

/-- Names that lead from a path to another one are names of that one, and therefore proper. -/
theorem isPathName_of_parts_eq (h : p.parts = base.parts ++ names) :
    ∀ n ∈ names, isPathName n = true := by
  intro n hn
  refine isPathName_of_mem_parts (p := p) ?_
  rw [h]
  exact List.mem_append_right _ hn

end Path

end Lockstep
