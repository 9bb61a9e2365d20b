import Lockstep.LockFile.Printer
import Lockstep.Proofs.Text.Order
import Lockstep.Proofs.Text.Pieces

/-!
# Lockstep — what can be written and read back

A text can be read back from the line it is written into if it holds none of the
characters with a meaning there:

* `IsName`               — a name on the right side of a line;
* `Coordinate.IsPlain`   — a coordinate on the left side of an entry;
* `IsCommentLine`        — a comment;
* `Lock.IsPlain`         — a lock of such coordinates and names.

Each side of a line is read back by itself (`namesOf_joinNames`,
`ofText?_text`), and then a line as a whole (`sides?_eq_some_iff`).
-/

namespace Lockstep

/-- A name that is read back as it is written. -/
structure IsName (n : Text) : Prop where
  ne_nil : n ≠ []
  trimmed : n.trim = n
  no_equals : char '=' ∉ n
  no_comma : char ',' ∉ n
  no_newline : char '\n' ∉ n

/-- A coordinate that is read back as it is written. -/
structure Coordinate.IsPlain (c : Coordinate) : Prop where
  no_colon : ∀ field ∈ c.fields, char ':' ∉ field
  no_equals : ∀ field ∈ c.fields, char '=' ∉ field
  no_newline : ∀ field ∈ c.fields, char '\n' ∉ field
  no_comment : ¬ Line.commentMark <+: c.group

/-- All that a lock records can be read back. -/
structure Lock.IsPlain (l : Lock) : Prop where
  coordinates : ∀ c ∈ l.locked.keys, c.IsPlain
  names : ∀ n ∈ l.tracked, IsName n

/-- A coordinate whose line is split where it was joined; the line as a whole may
still be a comment. -/
structure Coordinate.IsSeparated (c : Coordinate) : Prop where
  no_colon : ∀ field ∈ c.fields, char ':' ∉ field
  no_equals : ∀ field ∈ c.fields, char '=' ∉ field
  no_newline : ∀ field ∈ c.fields, char '\n' ∉ field

/-- The lines of a lock are split where they were joined. -/
structure Lock.IsSeparated (l : Lock) : Prop where
  coordinates : ∀ c ∈ l.locked.keys, c.IsSeparated
  names : ∀ n ∈ l.tracked, IsName n

/-- A comment that is read back as it is written. -/
structure IsCommentLine (line : Text) : Prop where
  marked : Line.commentMark <+: line
  no_newline : char '\n' ∉ line
  no_return : line.getLast? ≠ some (char '\r')

instance (n : Text) : Decidable (IsName n) :=
  decidable_of_iff (n ≠ [] ∧ n.trim = n ∧ char '=' ∉ n ∧ char ',' ∉ n ∧ char '\n' ∉ n)
    ⟨fun ⟨hn, ht, he, hc, hl⟩ => ⟨hn, ht, he, hc, hl⟩, fun ⟨hn, ht, he, hc, hl⟩ =>
      ⟨hn, ht, he, hc, hl⟩⟩

instance (c : Coordinate) : Decidable c.IsPlain :=
  decidable_of_iff ((∀ field ∈ c.fields, char ':' ∉ field) ∧ (∀ field ∈ c.fields, char '=' ∉ field) ∧
      (∀ field ∈ c.fields, char '\n' ∉ field) ∧ ¬ Line.commentMark <+: c.group)
    ⟨fun ⟨hc, he, hl, hm⟩ => ⟨hc, he, hl, hm⟩, fun ⟨hc, he, hl, hm⟩ => ⟨hc, he, hl, hm⟩⟩

instance (l : Lock) : Decidable l.IsPlain :=
  decidable_of_iff ((∀ c ∈ l.locked.keys, c.IsPlain) ∧ ∀ n ∈ l.tracked.toList, IsName n)
    ⟨fun ⟨hc, hn⟩ => ⟨hc, hn⟩, fun ⟨hc, hn⟩ => ⟨hc, hn⟩⟩

instance (line : Text) : Decidable (IsCommentLine line) :=
  decidable_of_iff (Line.commentMark <+: line ∧ char '\n' ∉ line ∧ line.getLast? ≠ some (char '\r'))
    ⟨fun ⟨hm, hl, hr⟩ => ⟨hm, hl, hr⟩, fun ⟨hm, hl, hr⟩ => ⟨hm, hl, hr⟩⟩

-- ---------------------------------------------------------------------------
-- Coordinates
-- ---------------------------------------------------------------------------

namespace Coordinate

/-- A text is a coordinate if it has three parts between its colons. -/
theorem ofText?_eq_some_iff_splitOn {t : Text} {c : Coordinate} :
    ofText? t = some c ↔ t.splitOn (char ':') = c.fields := by
  obtain ⟨g, a, v⟩ := c
  rw [ofText?, fields]
  split <;> simp_all

/-- A text is a coordinate if it is written for one whose fields hold no colon.
There may be nothing in a field, or blanks. -/
theorem ofText?_eq_some_iff {t : Text} {c : Coordinate} :
    ofText? t = some c ↔ t = c.text ∧ ∀ field ∈ c.fields, char ':' ∉ field := by
  obtain ⟨g, a, v⟩ := c
  have hParts : ofText? t = some ⟨g, a, v⟩ ↔ t.splitOn (char ':') = [g, a, v] :=
    ofText?_eq_some_iff_splitOn
  rw [hParts]
  constructor
  · intro h
    refine ⟨?_, fun field hField => ?_⟩
    · rw [← Text.joinWith_splitOn (char ':') t, h]
      simp [Text.joinWith, text]
    · exact Text.not_mem_of_mem_splitOn (t := t) (by rw [h]; exact hField)
  · rintro ⟨rfl, hColon⟩
    -- no field has a colon, so that the text is split between the fields and nowhere else
    have hg : char ':' ∉ g := hColon g (by simp [fields])
    have ha : char ':' ∉ a := hColon a (by simp [fields])
    have hv : char ':' ∉ v := hColon v (by simp [fields])
    rw [text, Text.splitOn_append_cons hg, Text.splitOn_append_cons ha,
      Text.splitOn_of_not_mem hv]

/-- What separates the two notions is the mark of a comment. -/
theorem isPlain_iff {c : Coordinate} :
    c.IsPlain ↔ c.IsSeparated ∧ ¬ Line.commentMark <+: c.group :=
  ⟨fun ⟨hc, he, hl, hm⟩ => ⟨⟨hc, he, hl⟩, hm⟩, fun ⟨⟨hc, he, hl⟩, hm⟩ => ⟨hc, he, hl, hm⟩⟩

/-- A plain coordinate is read back from its text. -/
theorem ofText?_text {c : Coordinate} (h : c.IsPlain) : ofText? c.text = some c :=
  ofText?_eq_some_iff.2 ⟨rfl, h.no_colon⟩

/-- Without colons in their fields, coordinates are told apart by their texts. -/
theorem text_injective {c d : Coordinate} (hc : ∀ field ∈ c.fields, char ':' ∉ field)
    (hd : ∀ field ∈ d.fields, char ':' ∉ field) (h : c.text = d.text) : c = d := by
  have hRead : ofText? c.text = some c := ofText?_eq_some_iff.2 ⟨rfl, hc⟩
  rw [h, ofText?_eq_some_iff.2 ⟨rfl, hd⟩] at hRead
  exact (Option.some.inj hRead).symm

theorem mem_text {c : Coordinate} {x : Letter} (h : x ∈ c.text) :
    x = char ':' ∨ ∃ field ∈ c.fields, x ∈ field := by
  simp only [text, List.mem_append, List.mem_cons] at h
  rcases h with h | rfl | h | rfl | h
  · exact Or.inr ⟨c.group, by simp [fields], h⟩
  · exact Or.inl rfl
  · exact Or.inr ⟨c.artifact, by simp [fields], h⟩
  · exact Or.inl rfl
  · exact Or.inr ⟨c.version, by simp [fields], h⟩

theorem not_mem_text {c : Coordinate} {x : Letter} (hx : x ≠ char ':')
    (h : ∀ field ∈ c.fields, x ∉ field) : x ∉ c.text := by
  intro hMem
  rcases mem_text hMem with hColon | ⟨field, hField, hxf⟩
  · exact hx hColon
  · exact h field hField hxf

theorem mem_text_of_mem {c : Coordinate} {x : Letter} {field : Text} (hField : field ∈ c.fields)
    (h : x ∈ field) : x ∈ c.text := by
  simp only [fields, List.mem_cons, List.not_mem_nil, or_false] at hField
  rcases hField with rfl | rfl | rfl <;> simp [text, h]

/-- The mark of a comment is too short to reach beyond the group and its colon. -/
theorem commentMark_prefix_text_iff {c : Coordinate} {rest : Text} :
    Line.commentMark <+: c.text ++ rest ↔ Line.commentMark <+: c.group := by
  obtain ⟨g, a, v⟩ := c
  have hMark : Line.commentMark = [char '#', char ' '] := rfl
  rw [hMark, text]
  match g with
  | [] => simp
  | [x] => simp
  | x :: y :: g => simp

end Coordinate

-- ---------------------------------------------------------------------------
-- Names
-- ---------------------------------------------------------------------------

namespace Line

/-- The names of a right side are its trimmed pieces between commas, but for the empty one. -/
theorem mem_namesOf {right n : Text} :
    n ∈ namesOf right ↔ n ≠ [] ∧ ∃ piece ∈ right.splitOn (char ','), piece.trim = n := by
  rw [namesOf, NameSet.mem_ofList, List.mem_filter, List.mem_map, and_comm]
  refine and_congr_left fun _ => ?_
  cases n <;> simp

theorem mem_of_mem_namesOf {right n : Text} {x : Letter} (h : n ∈ namesOf right) (hx : x ∈ n) :
    x ∈ right := by
  obtain ⟨-, piece, hPiece, rfl⟩ := mem_namesOf.1 h
  exact Text.mem_of_mem_piece hPiece (Text.mem_of_mem_trimBy hx)

/-- What is read as a name can be written and read back. -/
theorem isName_of_mem_namesOf {right n : Text} (heq : char '=' ∉ right) (hnl : char '\n' ∉ right)
    (h : n ∈ namesOf right) : IsName n := by
  obtain ⟨hne, piece, hPiece, rfl⟩ := mem_namesOf.1 h
  exact {
    ne_nil := hne
    trimmed := Text.trim_trim piece
    no_equals := fun hx => heq (mem_of_mem_namesOf h hx)
    no_comma := fun hx => Text.not_mem_of_mem_splitOn hPiece (Text.mem_of_mem_trimBy hx)
    no_newline := fun hx => hnl (mem_of_mem_namesOf h hx) }

end Line

namespace LockFile

theorem joinNames_eq (s : NameSet) : joinNames s.toList = Text.joinWith [char ','] s.toList := by
  rw [joinNames, Text.sort_eq_self s.increasing]

variable {s : NameSet}

/-- The names of a set are read back from the text that joins them. For no names
this is the empty text, whose one piece is empty and is no name. -/
theorem namesOf_joinNames (h : ∀ n ∈ s, IsName n) : Line.namesOf (joinNames s.toList) = s := by
  rw [joinNames_eq]
  apply NameSet.ext
  intro n
  rw [Line.mem_namesOf]
  -- no names and one empty piece are the same text, so that this case is not the one of
  -- `splitOn_joinWith`
  by_cases hs : s.toList = []
  · have hNone : n ∉ s := by
      rw [← NameSet.mem_toList, hs]
      exact List.not_mem_nil
    rw [hs]
    simp only [hNone, iff_false, not_and]
    rintro hne ⟨piece, hPiece, rfl⟩
    rw [show piece = [] from List.mem_singleton.1 hPiece] at hne
    exact hne rfl
  · rw [Text.splitOn_joinWith hs fun piece hPiece => (h piece hPiece).no_comma]
    constructor
    · rintro ⟨-, piece, hPiece, rfl⟩
      rw [(h piece hPiece).trimmed]
      exact hPiece
    · exact fun hn => ⟨(h n hn).ne_nil, n, hn, (h n hn).trimmed⟩

theorem not_mem_joinNames {x : Letter} (hx : x ≠ char ',') (h : ∀ n ∈ s, x ∉ n) :
    x ∉ joinNames s.toList := by
  rw [joinNames_eq]
  intro hMem
  rcases Text.mem_joinWith hMem with hComma | ⟨n, hn, hxn⟩
  · exact hx hComma
  · exact h n hn hxn

/-- Joined names do not end in a blank. -/
theorem getLast?_joinNames (h : ∀ n ∈ s, IsName n) {x : Letter}
    (hx : (joinNames s.toList).getLast? = some x) : isBlank x = false := by
  rw [joinNames_eq] at hx
  cases hLast : s.toList.getLast? with
  | none =>
    rw [List.getLast?_eq_none_iff.1 hLast] at hx
    simp [Text.joinWith] at hx
  | some n =>
    have hn := h n (List.mem_of_getLast? hLast)
    rw [Text.getLast?_joinWith hLast hn.ne_nil] at hx
    exact Text.getLast?_of_trim_eq_self hn.trimmed hx

/-- The joined text of names is empty only if there are none, or a single one that
is empty. An entry with this one name cannot be told from one without names. -/
theorem joinNames_eq_nil_iff (hs : s ≠ ∅) : joinNames s.toList = [] ↔ s = NameSet.singleton [] := by
  constructor
  · intro hJoined
    rw [joinNames_eq] at hJoined
    -- a letter of a name would be a letter of the joined text
    have hEmpty : ∀ n ∈ s, n = [] := by
      intro n hn
      refine List.eq_nil_iff_forall_not_mem.2 fun x hx => ?_
      exact absurd (Text.mem_joinWith_of_mem hn hx) (hJoined ▸ List.not_mem_nil)
    obtain ⟨n, hn⟩ := NameSet.ne_empty_iff.1 hs
    apply NameSet.ext
    intro m
    rw [NameSet.mem_singleton]
    constructor
    · exact hEmpty m
    · rintro rfl
      exact hEmpty n hn ▸ hn
  · rintro rfl
    rfl

end LockFile

-- ---------------------------------------------------------------------------
-- The two sides of a line
-- ---------------------------------------------------------------------------

namespace Line

/-- A line has two sides if it is written with one equals sign between them. The sides may be empty.
-/
theorem sides?_eq_some_iff {line left right : Text} :
    sides? line = some (left, right) ↔
      line = left ++ char '=' :: right ∧ char '=' ∉ left ∧ char '=' ∉ right := by
  -- two sides are two pieces
  have hParts : sides? line = some (left, right) ↔ line.splitOn (char '=') = [left, right] := by
    rw [sides?]
    split <;> simp_all
  rw [hParts]
  constructor
  · intro h
    refine ⟨?_, ?_, ?_⟩
    · rw [← Text.joinWith_splitOn (char '=') line, h]
      simp [Text.joinWith]
    · exact Text.not_mem_of_mem_splitOn (t := line) (by rw [h]; simp)
    · exact Text.not_mem_of_mem_splitOn (t := line) (by rw [h]; simp)
  · rintro ⟨rfl, hLeft, hRight⟩
    rw [Text.splitOn_append_cons hLeft, Text.splitOn_of_not_mem hRight]

end Line

end Lockstep
