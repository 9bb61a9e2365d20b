import Lockstep.Proofs.Files.Places
import Lockstep.Proofs.Snapshot.Grammar

/-!
# Lockstep — spellings of module paths

The names of directories that lead to a module may be written as a directory, with
slashes at the ends or without, or as a project path, with a first colon or without.
A snapshot and an argument of the command line read all four as the path of the
directory (`ofSnapshot_of_mem_spellings`, `ofArgument_of_mem_spellings`), also if
there are no names or a single one; so this is the key of a module of a document
(`DescribesModule.key_eq`).
-/

namespace Lockstep

namespace ModulePath

/-- Names of directories without colons, and without blanks where the path begins and ends. -/
structure IsModule (names : List Text) : Prop where
  proper : ∀ n ∈ names, isPathName n = true ∧ char ':' ∉ n
  first : ∀ n ∈ names.head?, ∀ c ∈ n.head?, isBlank c = false
  last : ∀ n ∈ names.getLast?, ∀ c ∈ n.getLast?, isBlank c = false

/-- The path of the directory. -/
def directory (names : List Text) : Text := Text.joinWith [char '/'] names

/-- The path of the project, without the first colon. -/
def project (names : List Text) : Text := Text.joinWith [char ':'] names

/-- The four ways to write a module path. -/
def spellings (names : List Text) : List Text :=
  [directory names, char '/' :: directory names ++ [char '/'], project names, char ':' :: project names]

variable {names : List Text} {sep : Letter} {t : Text}

-- ---------------------------------------------------------------------------
-- Names in a row
-- ---------------------------------------------------------------------------

theorem IsModule.ne_nil (h : IsModule names) : ∀ n ∈ names, n ≠ [] := by
  rintro n hn rfl
  exact absurd (h.proper [] hn).1 (by decide)

/-- A name has none of the separators. -/
theorem IsModule.ne_separator (h : IsModule names) :
    ∀ n ∈ names, ∀ c ∈ n, c ≠ char ':' ∧ c ≠ char '/' := by
  intro n hn c hc
  obtain ⟨hName, hColon⟩ := h.proper n hn
  have hSlash := slash_not_mem_of_isPathName hName
  exact ⟨fun heq => hColon (heq ▸ hc), fun heq => hSlash (heq ▸ hc)⟩

/-- A letter of names in a row is the separator between them, or is none of the two. -/
theorem IsModule.mem_joinWith (h : IsModule names) {c : Letter}
    (hc : c ∈ Text.joinWith [sep] names) : c = sep ∨ c ≠ char ':' ∧ c ≠ char '/' := by
  rcases Text.mem_joinWith hc with heq | ⟨n, hn, hMem⟩
  · exact Or.inl heq
  · exact Or.inr (h.ne_separator n hn c hMem)

/-- No blank begins names in a row. -/
theorem IsModule.blank_head? (h : IsModule names) {c : Letter}
    (hc : (Text.joinWith [sep] names).head? = some c) : isBlank c = false := by
  cases names with
  | nil => simp [Text.joinWith] at hc
  | cons first others =>
    rw [Text.head?_joinWith (h.ne_nil first List.mem_cons_self)] at hc
    exact h.first first rfl c hc

/-- No blank ends names in a row. -/
theorem IsModule.blank_getLast? (h : IsModule names) {c : Letter}
    (hc : (Text.joinWith [sep] names).getLast? = some c) : isBlank c = false := by
  cases hLast : names.getLast? with
  | none =>
    rw [List.getLast?_eq_none_iff.1 hLast] at hc
    simp [Text.joinWith] at hc
  | some n =>
    rw [Text.getLast?_joinWith hLast (h.ne_nil n (List.mem_of_getLast? hLast))] at hc
    exact h.last n hLast c hc

theorem IsModule.trim_joinWith (h : IsModule names) :
    (Text.joinWith [sep] names).trim = Text.joinWith [sep] names :=
  Text.trimBy_eq_self (fun _ => h.blank_head?) fun _ => h.blank_getLast?

/-- A class of separators trims nothing from names in a row. -/
theorem IsModule.trimBy_joinWith (h : IsModule names) {drop : Letter → Bool}
    (hDrop : ∀ c, c ≠ char ':' ∧ c ≠ char '/' → drop c = false) :
    (Text.joinWith [sep] names).trimBy drop = Text.joinWith [sep] names :=
  Text.trimBy_joinWith h.ne_nil fun n hn c hc => hDrop c (h.ne_separator n hn c hc)

/-- A directory has no colons to be replaced. -/
theorem IsModule.replaceChar_directory (h : IsModule names) :
    (directory names).replaceChar (char ':') (char '/') = directory names :=
  Text.replaceChar_joinWith fun n hn => (h.proper n hn).2

/-- With slashes for its colons, the project path is the directory. -/
theorem IsModule.replaceChar_project (h : IsModule names) :
    (project names).replaceChar (char ':') (char '/') = directory names :=
  Text.replaceChar_joinWith fun n hn => (h.proper n hn).2

-- ---------------------------------------------------------------------------
-- Spellings
-- ---------------------------------------------------------------------------

theorem IsModule.colon_not_mem_directory (h : IsModule names) : char ':' ∉ directory names := by
  intro hc
  rcases h.mem_joinWith hc with heq | ⟨hne, -⟩
  · exact absurd heq (by decide)
  · exact hne rfl

theorem IsModule.slash_not_mem_project (h : IsModule names) : char '/' ∉ project names := by
  intro hc
  rcases h.mem_joinWith hc with heq | ⟨-, hne⟩
  · exact absurd heq (by decide)
  · exact hne rfl

theorem hasColonSeparators_eq_false (h : char ':' ∉ t) : hasColonSeparators t = false := by
  rw [hasColonSeparators, Bool.or_eq_false_iff, beq_eq_false_iff_ne]
  exact ⟨fun hHead => h (List.mem_of_head? hHead), by simp [h]⟩

/-- No slash begins or ends a directory that is written without. -/
theorem dropSlashes_directory (h : IsModule names) :
    dropSlashes (directory names) = directory names :=
  h.trimBy_joinWith fun _ hc => beq_eq_false_iff_ne.2 hc.2

/-- Slashes around a directory do not count. -/
theorem dropSlashes_surrounded (h : IsModule names) (before after : Text)
    (hBefore : ∀ c ∈ before, c = char '/') (hAfter : ∀ c ∈ after, c = char '/') :
    dropSlashes (before ++ directory names ++ after) = directory names := by
  rw [dropSlashes, Text.trimBy_append_right fun c hc => beq_iff_eq.2 (hAfter c hc),
    Text.trimBy_append_left fun c hc => beq_iff_eq.2 (hBefore c hc)]
  exact dropSlashes_directory h

/-- Of a trimmed path, only the separators change. -/
theorem ofSnapshot_of_trim (hTrim : Text.trim t = t) :
    ofSnapshot t = dropSlashes (if hasColonSeparators t then t.replaceChar (char ':') (char '/') else t) := by
  simp only [ofSnapshot, hTrim]

/-- A directory is its own normal form. -/
theorem ofSnapshot_directory (h : IsModule names) :
    ofSnapshot (directory names) = directory names := by
  have hTrim : Text.trim (directory names) = directory names := h.trim_joinWith
  rw [ofSnapshot_of_trim hTrim, hasColonSeparators_eq_false h.colon_not_mem_directory]
  exact dropSlashes_directory h

/-- Slashes at the ends of a directory are dropped. With a slash in front, no colon
of it would count as a separator. -/
theorem ofSnapshot_surrounded (h : IsModule names) :
    ofSnapshot (char '/' :: directory names ++ [char '/']) = directory names := by
  have hTrim : Text.trim (char '/' :: directory names ++ [char '/']) = char '/' :: directory names ++ [char '/'] := by
    refine Text.trimBy_eq_self (fun c hc => ?_) fun c hc => ?_
    · obtain rfl : char '/' = c := by simpa using hc
      decide
    · rw [List.getLast?_concat, Option.some_inj] at hc
      subst hc
      decide
  have hNone : hasColonSeparators (char '/' :: directory names ++ [char '/']) = false :=
    hasColonSeparators_eq_false (by simp [h.colon_not_mem_directory])
  rw [ofSnapshot_of_trim hTrim, hNone]
  exact dropSlashes_surrounded h [char '/'] [char '/'] (by simp) (by simp)

/-- A project path is read as the directory: without slashes, its colons separate. -/
theorem ofSnapshot_project (h : IsModule names) : ofSnapshot (project names) = directory names := by
  have hTrim : Text.trim (project names) = project names := h.trim_joinWith
  -- without a colon there is at most one name, which is a directory as it stands
  have hReplaced : (if hasColonSeparators (project names) then (project names).replaceChar (char ':') (char '/')
      else project names) = directory names := by
    split
    · exact h.replaceChar_project
    · next hNone =>
      have hno : char ':' ∉ project names := fun hMem =>
        hNone (by simp [hasColonSeparators, hMem, h.slash_not_mem_project])
      rw [← h.replaceChar_project, Text.replaceChar_eq_self hno]
  rw [ofSnapshot_of_trim hTrim, hReplaced]
  exact dropSlashes_directory h

/-- So is a project path with a first colon. This includes the colon alone, which
is the root. -/
theorem ofSnapshot_colon_project (h : IsModule names) :
    ofSnapshot (char ':' :: project names) = directory names := by
  have hTrim : Text.trim (char ':' :: project names) = char ':' :: project names := by
    refine Text.trimBy_eq_self (fun c hc => ?_) fun c hc => ?_
    · obtain rfl : char ':' = c := by simpa using hc
      decide
    · rw [List.getLast?_cons] at hc
      -- the last letter is the one of the names, or the colon if there are none
      cases hLast : (project names).getLast? with
      | none =>
        obtain rfl : char ':' = c := by simpa [hLast] using hc
        decide
      | some last =>
        obtain rfl : last = c := by simpa [hLast] using hc
        exact h.blank_getLast? hLast
  have hSome : hasColonSeparators (char ':' :: project names) = true := rfl
  have hReplaced : Text.replaceChar (char ':') (char '/') (char ':' :: project names) = [char '/'] ++ directory names ++ [] := by
    rw [← h.replaceChar_project, List.append_nil]
    rfl
  rw [ofSnapshot_of_trim hTrim, hSome, if_pos rfl, hReplaced]
  exact dropSlashes_surrounded h [char '/'] [] (by simp) (by simp)

/-- A snapshot may write a module path in any of the four ways. -/
theorem ofSnapshot_of_mem_spellings (h : IsModule names) (ht : t ∈ spellings names) :
    ofSnapshot t = directory names := by
  simp only [spellings, List.mem_cons, List.not_mem_nil, or_false] at ht
  rcases ht with rfl | rfl | rfl | rfl
  · exact ofSnapshot_directory h
  · exact ofSnapshot_surrounded h
  · exact ofSnapshot_project h
  · exact ofSnapshot_colon_project h

/-- Separators around names in a row do not count in an argument. -/
theorem IsModule.ofArgument_surrounded (h : IsModule names) (sep : Letter) (before after : Text)
    (hBefore : ∀ c ∈ before, c = char ':' ∨ c = char '/') (hAfter : ∀ c ∈ after, c = char ':' ∨ c = char '/') :
    ofArgument (before ++ Text.joinWith [sep] names ++ after) =
      (Text.joinWith [sep] names).replaceChar (char ':') (char '/') := by
  rw [ofArgument, Text.trimBy_append_right fun c hc => by simpa using hAfter c hc,
    Text.trimBy_append_left fun c hc => by simpa using hBefore c hc,
    h.trimBy_joinWith fun c hc => by simpa using hc]

/-- An argument may write a module path in any of the four ways, too. It is trimmed
of both separators at once, where a snapshot distinguishes between them. -/
theorem ofArgument_of_mem_spellings (h : IsModule names) (ht : t ∈ spellings names) :
    ofArgument t = directory names := by
  simp only [spellings, List.mem_cons, List.not_mem_nil, or_false] at ht
  rcases ht with rfl | rfl | rfl | rfl
  · have hPlain := (h.ofArgument_surrounded (char '/') [] [] (by simp) (by simp)).trans h.replaceChar_directory
    rw [List.nil_append, List.append_nil] at hPlain
    exact hPlain
  · exact (h.ofArgument_surrounded (char '/') [char '/'] [char '/'] (by simp) (by simp)).trans h.replaceChar_directory
  · have hPlain := (h.ofArgument_surrounded (char ':') [] [] (by simp) (by simp)).trans h.replaceChar_project
    rw [List.nil_append, List.append_nil] at hPlain
    exact hPlain
  · have hColon := (h.ofArgument_surrounded (char ':') [char ':'] [] (by simp) (by simp)).trans h.replaceChar_project
    rw [List.append_nil] at hColon
    exact hColon

end ModulePath

-- ---------------------------------------------------------------------------
-- Modules of a document
-- ---------------------------------------------------------------------------

namespace Snapshot

open ModulePath (IsModule directory spellings)

/-- The path of a module, which is empty if it is left out, is a spelling of the names. -/
def SpellsModule (m : Json.Value) (names : List Text) : Prop :=
  ∃ t ∈ spellings names, FieldDescribesOr DescribesText [] m "path" t

/-- A module that spells names is known by the path of their directory. -/
theorem DescribesModule.key_eq {m : Json.Value} {e : Text × Project} {names : List Text}
    (hm : DescribesModule m e) (h : IsModule names) (hNames : SpellsModule m names) :
    e.1 = directory names := by
  obtain ⟨t, ht, hPath⟩ := hNames
  obtain ⟨written, hWritten, hKey⟩ := hm.path
  obtain rfl := hWritten.text_unique hPath
  rw [hKey, ModulePath.ofSnapshot_of_mem_spellings h ht]

end Snapshot

end Lockstep
