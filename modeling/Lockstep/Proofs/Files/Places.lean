import Lockstep.Proofs.Files.PathTexts
import Lockstep.Proofs.Files.ReadWrite
import Lockstep.Proofs.Text.Utf8

/-!
# Lockstep — places and their paths

A place on a disk is the names that lead to it from the root. In a proper tree they
are all names that a file can have (`isFileName_of_at?`), so that the path written
with them, unless it is too long, leads there (`resolve_text_of_at?`). In the same way
they lead on from any path of a directory to what is in it (`entry_text_append`). A
file that cannot be read is reported, unless no file can have its path
(`isReported_iff_of_read_eq_error`).
-/

namespace Lockstep

-- ---------------------------------------------------------------------------
-- Names
-- ---------------------------------------------------------------------------

/-- A name that a file can have is one that a path keeps: it is not empty, no dot,
and holds no slash. -/
theorem isPathName_of_isFileName {n : Text} (h : isFileName n = true) : isPathName n = true := by
  simp only [isFileName, Bool.and_eq_true] at h
  exact h.1.1.1.1

/-- The texts that the file system takes as paths: no letter is NUL, and each has bytes. -/
def IsPathText (t : Text) : Prop := ∀ c ∈ t, c ≠ char '\x00' ∧ (Utf8.nameBytes? c).isSome

/-- A name that a file can have is a text that the file system takes. -/
theorem isPathText_of_isFileName {n : Text} (h : isFileName n = true) : IsPathText n := by
  simp only [isFileName, Bool.and_eq_true, Bool.not_eq_true', List.contains_eq_mem,
    decide_eq_false_iff_not, List.all_eq_true] at h
  obtain ⟨⟨⟨-, hNul⟩, hBytes⟩, -⟩ := h
  exact fun c hc => ⟨fun hSame => hNul (hSame ▸ hc), hBytes c hc⟩

/-- What the text of a path has besides its names are slashes and the dot of
the empty path, so that it depends on the names alone whether a file can
have the path. -/
theorem Path.isPathText_text_iff (p : Path) : IsPathText p.text ↔ ∀ n ∈ p.parts, IsPathText n := by
  constructor
  · intro h n hn c hc
    -- a slash or a dot is a letter of some path; any other letter of a path is one of its names
    by_cases hSlash : c = char '/'
    · rw [hSlash]; decide
    by_cases hDot : c = char '.'
    · rw [hDot]; decide
    exact h c ((mem_text_iff hDot hSlash).2 ⟨n, hn, hc⟩)
  · intro h c hc
    by_cases hSlash : c = char '/'
    · rw [hSlash]; decide
    by_cases hDot : c = char '.'
    · rw [hDot]; decide
    obtain ⟨n, hn, hMem⟩ := (mem_text_iff hDot hSlash).1 hc
    exact h n hn c hMem

-- ---------------------------------------------------------------------------
-- Directories
-- ---------------------------------------------------------------------------

@[simp] theorem Entry.at?_nil (e : Entry) : e.at? [] = some e := by
  cases e <;> rfl

@[simp] theorem Entry.at?_folder (inside : Listing) (names : List Text) :
    (Entry.folder inside).at? names = inside.at? names := by
  cases names <;> rfl

namespace Listing

variable {l : Listing} {e : Entry}

/-- Names are followed in two parts, the second one from where the first one leads.
If this is a file, the second part must be empty. -/
theorem at?_append (l : Listing) (names below : List Text) :
    l.at? (names ++ below) = (l.at? names).bind fun e => e.at? below := by
  induction names generalizing l with
  | nil => rw [List.nil_append, at?, Option.bind_some, Entry.at?_folder]
  | cons name rest ih =>
    rw [List.cons_append, at?_cons, at?_cons]
    cases l.get? name with
    | none => rfl
    | some e =>
      rw [Option.bind_some, Option.bind_some]
      cases e with
      | folder inside => rw [Entry.at?_folder, Entry.at?_folder, ih]
      | file content => cases rest <;> cases below <;> rfl

/-- Whatever is found in a proper tree is proper itself: each directory in it lists
names that files can have. -/
theorem isProper_of_at? {names : List Text} (h : l.isProper = true) (he : l.at? names = some e) :
    e.isProper = true := by
  -- on the names; each step goes into a directory that is proper as part of a proper one
  induction names generalizing l with
  | nil =>
    obtain rfl := Option.some.inj he
    exact h
  | cons name rest ih =>
    rw [at?_cons, Option.bind_eq_some_iff] at he
    obtain ⟨first, hGet, hRest⟩ := he
    have hFirst := isProper_of_get? h hGet
    cases first with
    | folder inside =>
      rw [Entry.at?_folder] at hRest
      exact ih hFirst hRest
    | file content =>
      cases rest with
      | nil =>
        obtain rfl := Option.some.inj hRest
        rfl
      | cons next rest => exact absurd hRest (by simp [Entry.at?])

/-- The names that lead to an entry of a proper listing are names that a file
can have. None of them is a dot, two dots or empty, which a walk would not
follow as a name. -/
theorem isFileName_of_at? {names : List Text} (h : l.isProper = true) (he : l.at? names = some e) :
    ∀ n ∈ names, isFileName n = true := by
  induction names generalizing l with
  | nil => exact fun n hn => absurd hn List.not_mem_nil
  | cons name rest ih =>
    rw [at?_cons, Option.bind_eq_some_iff] at he
    obtain ⟨first, hGet, hRest⟩ := he
    intro n hn
    rcases List.mem_cons.1 hn with rfl | hn
    · exact isFileName_of_get? h hGet
    · cases first with
      | folder inside =>
        rw [Entry.at?_folder] at hRest
        exact ih (isProper_of_get? h hGet) hRest n hn
      -- no names go on from a file
      | file content =>
        cases rest with
        | nil => exact absurd hn List.not_mem_nil
        | cons next rest => exact absurd hRest (by simp [Entry.at?])

end Listing

/-- Names that lead to something are all kept when they are put after a path. -/
theorem Path.parts_append_of_at? {inside : Listing} {e : Entry} {names : List Text} (p : Path)
    (hProper : inside.isProper = true) (h : inside.at? names = some e) :
    (p.append names).parts = p.parts ++ names :=
  parts_append fun n hn => isPathName_of_isFileName (Listing.isFileName_of_at? hProper h n hn)

-- ---------------------------------------------------------------------------
-- The disk
-- ---------------------------------------------------------------------------

namespace Disk

variable {d : Disk} {e : Entry}

/-- A way is followed piece by piece. The dots among the pieces make no difference,
since each is followed from the place that was reached before it. -/
theorem walk_append (root : Listing) (place names below : List Text) :
    walk root place (names ++ below) =
      walk root place names >>= fun place' => walk root place' below := by
  induction names generalizing place with
  | nil => rfl
  | cons name rest ih =>
    rw [List.cons_append, walk, walk]
    -- on what is at the place, then on the first name; both walks stop at the same faults
    split
    · split
      · exact ih place
      · split
        · exact ih place.dropLast
        · split
          · rfl
          · split
            · exact ih (place ++ [name])
            · rfl
    · rfl
    · rfl

/-- Names that a file can have lead where they say. This is not so for all names
in a tree of this kind: a walk treats dots and empty names on their own, and
refuses long ones. -/
theorem walk_of_at? {root : Listing} {place names : List Text}
    (hNames : ∀ n ∈ names, isFileName n = true) (he : root.at? (place ++ names) = some e) :
    walk root place names = .ok (place ++ names) := by
  induction names generalizing place with
  | nil => rw [List.append_nil, walk]
  | cons name rest ih =>
    have hName := hNames name List.mem_cons_self
    simp only [isFileName, isPathName, Bool.and_eq_true, Bool.not_eq_true', bne_iff_ne,
      decide_eq_true_eq] at hName
    -- such a name is none of the three that a walk treats on their own, and is not too long
    obtain ⟨⟨⟨⟨⟨⟨hEmpty, hDot⟩, -⟩, hDots⟩, -⟩, -⟩, hLength⟩ := hName
    have hPlace := he
    rw [Listing.at?_append, Option.bind_eq_some_iff] at hPlace
    obtain ⟨here, hHere, hBelow⟩ := hPlace
    cases here with
    | file content => exact absurd hBelow (by simp [Entry.at?])
    | folder inside =>
      rw [Entry.at?_folder, Listing.at?_cons, Option.bind_eq_some_iff] at hBelow
      obtain ⟨first, hGet, -⟩ := hBelow
      have hRest : walk root (place ++ [name]) rest = .ok (place ++ [name] ++ rest) := by
        refine ih (fun n hn => hNames n (List.mem_cons_of_mem name hn)) ?_
        rwa [List.append_assoc, List.singleton_append]
      rw [List.append_assoc, List.singleton_append] at hRest
      rw [walk, hHere]
      simp [hEmpty, hDot, hDots, Nat.not_lt.2 hLength, hGet, hRest]

section Walk

variable {root inside : Listing} {place : List Text}

/-- An empty piece, as two slashes in a row leave it, does not move a walk. -/
theorem walk_nil_cons (names : List Text) (h : root.at? place = some (.folder inside)) :
    walk root place ([] :: names) = walk root place names := by
  rw [walk, h]
  rfl

/-- Names without slashes lead, once joined by slashes, where they lead by
themselves. There may be none: the empty text has one empty piece, which stays at
the directory. -/
theorem walk_joinWith {names : List Text} (hNames : ∀ n ∈ names, isPathName n = true)
    (h : root.at? place = some (.folder inside)) :
    walk root place ((Text.joinWith [char '/'] names).splitOn (char '/')) = walk root place names := by
  cases names with
  | nil => exact walk_nil_cons [] h
  | cons name rest =>
    rw [Text.splitOn_joinWith (by simp) fun n hn => slash_not_mem_of_isPathName (hNames n hn)]

/-- The pieces of a path's text lead where its names do: what the anchor adds are
empty pieces, and what the empty path adds is a dot. -/
theorem walk_splitOn_text (p : Path) (h : root.at? place = some (.folder inside)) :
    walk root place (p.text.splitOn (char '/')) = walk root place p.parts := by
  have hJoined := walk_joinWith (fun _ => Path.isPathName_of_mem_parts (p := p)) h
  -- a slash in front makes an empty piece, at which the walk does not move
  have hSlash : ∀ t : Text,
      walk root place (Text.splitOn (char '/') (char '/' :: t)) = walk root place (t.splitOn (char '/')) := by
    intro t
    rw [Text.splitOn, if_pos rfl, walk_nil_cons _ h]
  rw [Path.text]
  split
  · next hHere =>
    rw [hHere.2, Text.splitOn_of_not_mem (by decide)]
    simp [walk, h]
  · cases p.anchor with
    | relative => exact hJoined
    | root => exact (hSlash _).trans hJoined
    | doubleRoot => exact (hSlash _).trans ((hSlash _).trans hJoined)

end Walk

/-- The place that the names of a path lead from. -/
def base (d : Disk) (p : Path) : List Text := if p.anchor = .relative then d.working else []

variable {p : Path} {inside : Listing} {place names : List Text}

/-- Before a text is followed as a path, it is looked at as a whole: an empty text
leads nowhere, one that is too long is refused, and a slash in front decides where
the walk begins. -/
theorem resolve_eq_ite {t : Text} (h : IsPathText t) :
    d.resolve t =
      if t.isEmpty then .error .notFound
      else if isOverlong t then .error .tooLong
      else walk d.root (if t.head? = some (char '/') then [] else d.working) (t.splitOn (char '/')) := by
  have hBytes : Utf8.encodeName t = .ok (t.filterMap Utf8.nameBytes?).flatten :=
    Utf8.encodeFrom_eq_ok_iff.2 ⟨fun c hc => (h c hc).2, rfl⟩
  have hNul : char '\x00' ∉ t := fun hMem => (h _ hMem).1 rfl
  unfold resolve
  simp only [hBytes]
  rw [if_neg (by simpa using hNul)]

/-- The text of a path is followed from its base, piece by piece, if it is not too
long. It is never empty, for the empty path is written as a dot. -/
theorem resolve_text_eq (hText : IsPathText p.text) (hShort : isOverlong p.text = false) :
    d.resolve p.text = walk d.root (d.base p) (p.text.splitOn (char '/')) := by
  have hEmpty : p.text ≠ [] := by
    intro hEmpty
    have hHere := congrArg Path.text (Path.ofText_text p)
    rw [hEmpty] at hHere
    exact absurd hHere (by decide)
  have hBase : (if p.text.head? = some (char '/') then [] else d.working) = d.base p := by
    rw [base]
    split
    · next hSlash => rw [if_neg fun h => (Path.head?_text_ne_slash_iff p).2 h hSlash]
    · next hSlash => rw [if_pos ((Path.head?_text_ne_slash_iff p).1 hSlash)]
  rw [resolve_eq_ite hText, if_neg (by simpa using hEmpty), if_neg (by simpa using hShort), hBase]

/-- A text that is too long leads nowhere, whatever is on the disk. -/
theorem resolve_eq_tooLong {t : Text} (hText : IsPathText t) (hLong : isOverlong t = true) :
    d.resolve t = .error .tooLong := by
  have hEmpty : t ≠ [] := by
    rintro rfl
    exact absurd hLong (by decide)
  rw [resolve_eq_ite hText, if_neg (by simpa using hEmpty), if_pos hLong]

/-- A text that is no path fails for a fault that is not reported, whatever is on
the disk: it is refused before the disk is looked at. -/
theorem exists_fault_of_not_isPathText {t : Text} (h : ¬IsPathText t) :
    ∃ fault, d.resolve t = .error fault ∧ fault.isReported = false := by
  unfold resolve
  cases hBytes : Utf8.encodeName t with
  | error e => exact ⟨_, rfl, rfl⟩
  | ok bytes =>
    have hNul : char '\x00' ∈ t := by
      by_contra hNul
      exact h fun c hc =>
        ⟨fun hSame => hNul (hSame ▸ hc), (Utf8.encodeFrom_eq_ok_iff.1 hBytes).1 c hc⟩
    exact ⟨.nul, if_pos (by simpa using hNul), rfl⟩

/-- What leads somewhere is a text that the file system takes. -/
theorem isPathText_of_resolve_eq_ok {t : Text} (h : d.resolve t = .ok place) : IsPathText t := by
  by_contra hText
  obtain ⟨fault, hFault, -⟩ := exists_fault_of_not_isPathText (d := d) hText
  rw [hFault] at h
  simp at h

theorem isOverlong_of_resolve_eq_ok {t : Text} (h : d.resolve t = .ok place) :
    isOverlong t = false := by
  refine Bool.eq_false_iff.2 fun hLong => ?_
  rw [resolve_eq_tooLong (isPathText_of_resolve_eq_ok h) hLong] at h
  simp at h

/-- A path that leads somewhere starts from a directory, and its names lead there from it. -/
theorem walk_of_resolve_eq_ok (h : d.resolve p.text = .ok place) :
    (∃ inside, d.root.at? (d.base p) = some (.folder inside)) ∧
      walk d.root (d.base p) p.parts = .ok place := by
  rw [resolve_text_eq (isPathText_of_resolve_eq_ok h) (isOverlong_of_resolve_eq_ok h)] at h
  obtain ⟨inside, hInside⟩ : ∃ inside, d.root.at? (d.base p) = some (.folder inside) := by
    obtain ⟨first, others, hPieces⟩ := List.exists_cons_of_ne_nil (Text.splitOn_ne_nil (char '/') p.text)
    rw [hPieces, walk] at h
    split at h
    · next inside hInside => exact ⟨inside, hInside⟩
    · simp at h
    · simp at h
  exact ⟨⟨inside, hInside⟩, (walk_splitOn_text p hInside).symm.trans h⟩

/-- What a text is found to be stands at the place where it leads. -/
theorem entry_eq_ok_iff {t : Text} :
    d.entry t = .ok e ↔ ∃ place, d.resolve t = .ok place ∧ d.root.at? place = some e := by
  rw [entry]
  cases d.resolve t with
  | error fault => simp
  | ok place => cases hat : d.root.at? place <;> simp [hat]

/-- A directory that is found on a disk is proper, since the disk is. -/
theorem isProper_of_entry_eq_ok {t : Text} (h : d.entry t = .ok (.folder inside)) :
    inside.isProper = true := by
  obtain ⟨place, -, hat⟩ := entry_eq_ok_iff.1 h
  exact Listing.isProper_of_at? d.proper hat

/-- The path of anything on a disk is a text that the file system takes. -/
theorem isPathText_text_of_at? (he : d.root.at? p.parts = some e) : IsPathText p.text :=
  p.isPathText_text_iff.2 fun n hn =>
    isPathText_of_isFileName (Listing.isFileName_of_at? d.proper he n hn)

/-- The path from the root to a place leads there, unless it is too long. -/
theorem resolve_text_of_at? (hAnchor : p.anchor = .root) (he : d.root.at? p.parts = some e)
    (hShort : isOverlong p.text = false) : d.resolve p.text = .ok p.parts := by
  have hBase : d.base p = [] := by
    rw [base, hAnchor, if_neg (by simp)]
  rw [resolve_text_eq (isPathText_text_of_at? he) hShort, hBase,
    walk_splitOn_text p (Listing.at?.eq_1 d.root)]
  exact walk_of_at? (Listing.isFileName_of_at? d.proper he) he

/-- Names that a file can have lead on from where any path leads. The path may hold
two dots among its names; the names that are put after it do not, since something is
found by them. -/
theorem resolve_text_append (h : d.resolve p.text = .ok place)
    (he : d.root.at? (place ++ names) = some e)
    (hShort : isOverlong (p.append names).text = false) :
    d.resolve (p.append names).text = .ok (place ++ names) := by
  have hText := p.isPathText_text_iff.1 (isPathText_of_resolve_eq_ok h)
  obtain ⟨⟨inside, hInside⟩, hWalk⟩ := walk_of_resolve_eq_ok h
  -- the names are those of a proper tree, so that none of them is dropped from the path
  have hNames : ∀ n ∈ names, isFileName n = true := fun n hn =>
    Listing.isFileName_of_at? d.proper he n (List.mem_append_right place hn)
  have hParts : (p.append names).parts = p.parts ++ names :=
    Path.parts_append fun n hn => isPathName_of_isFileName (hNames n hn)
  have hText' : IsPathText (p.append names).text := by
    rw [Path.isPathText_text_iff, hParts]
    intro n hn
    rcases List.mem_append.1 hn with hn | hn
    · exact hText n hn
    · exact isPathText_of_isFileName (hNames n hn)
  calc d.resolve (p.append names).text
      = walk d.root (d.base p) ((p.append names).text.splitOn (char '/')) := resolve_text_eq hText' hShort
    _ = walk d.root (d.base p) (p.parts ++ names) := by rw [walk_splitOn_text _ hInside, hParts]
    _ = walk d.root (d.base p) p.parts >>= fun place' => walk d.root place' names :=
      walk_append d.root (d.base p) p.parts names
    _ = walk d.root place names := by rw [hWalk]; rfl
    _ = .ok (place ++ names) := walk_of_at? hNames he

/-- What is below a directory is where the names lead on from the directory's path.
A search that goes down by names therefore finds what its paths say. -/
theorem entry_text_append (h : d.entry p.text = .ok (.folder inside)) (he : inside.at? names = some e)
    (hShort : isOverlong (p.append names).text = false) :
    d.entry (p.append names).text = .ok e := by
  obtain ⟨place, hPlace, hFolder⟩ := entry_eq_ok_iff.1 h
  have hat : d.root.at? (place ++ names) = some e := by
    rw [Listing.at?_append, hFolder, Option.bind_some, Entry.at?_folder, he]
  exact entry_eq_ok_iff.2 ⟨place ++ names, resolve_text_append hPlace hat hShort, hat⟩

/-- The faults of the tree itself are all reported: something is missing, a file
stands where a directory should, or a name is too long. -/
theorem isReported_of_walk {fault : PathFault} {root : Listing} {place names : List Text}
    (h : walk root place names = .error fault) : fault.isReported = true := by
  induction names generalizing place with
  | nil => simp [walk] at h
  | cons name rest ih =>
    unfold walk at h
    -- the faults of a walk: a name that is too long, one that is missing, a file on the way, and
    -- nothing there
    split at h
    · split at h
      · exact ih h
      · split at h
        · exact ih h
        · split at h
          · exact Except.error.inj h ▸ rfl
          · split at h
            · exact ih h
            · exact Except.error.inj h ▸ rfl
    · exact Except.error.inj h ▸ rfl
    · exact Except.error.inj h ▸ rfl

/-- A text that leads nowhere is reported, unless no file can have it as a path. The
other faults come from the tree or from the length of the text. -/
theorem isReported_iff_of_resolve_eq_error {fault : PathFault} {t : Text}
    (h : d.resolve t = .error fault) : fault.isReported = true ↔ IsPathText t := by
  by_cases hText : IsPathText t
  · refine iff_of_true ?_ hText
    rw [resolve_eq_ite hText] at h
    split at h
    · exact Except.error.inj h ▸ rfl
    · split at h
      · exact Except.error.inj h ▸ rfl
      · exact isReported_of_walk h
  · obtain ⟨fault', hFault, hNot⟩ := exists_fault_of_not_isPathText (d := d) hText
    obtain rfl := Except.error.inj (hFault.symm.trans h)
    exact iff_of_false (by simp [hNot]) hText

/-- What was read has a text that the file system takes. -/
theorem isPathText_of_read_eq_ok {p : Path} {bytes : List UInt8} (h : d.read p = .ok bytes) :
    IsPathText p.text := by
  rw [read] at h
  cases hEntry : d.entry p.text with
  | error fault => simp [hEntry] at h
  | ok found =>
    obtain ⟨place, hPlace, -⟩ := entry_eq_ok_iff.1 hEntry
    exact isPathText_of_resolve_eq_ok hPlace

/-- That a file cannot be read is reported, unless no file can have its path. A NUL
in a path, or half of a surrogate pair without a byte of its own, ends the command
by an error that it does not catch. -/
theorem isReported_iff_of_read_eq_error {p : Path} {e : FileError} (h : d.read p = .error e) :
    e.fault.isReported = true ↔ IsPathText p.text := by
  rw [read, entry] at h
  -- reading fails at the path, or finds nothing or a directory at its place
  cases hPlace : d.resolve p.text with
  | error fault =>
    simp only [hPlace, Except.error.injEq] at h
    subst h
    exact isReported_iff_of_resolve_eq_error hPlace
  | ok place =>
    refine iff_of_true ?_ (isPathText_of_resolve_eq_ok hPlace)
    rw [hPlace] at h
    cases hat : d.root.at? place with
    | none =>
      simp only [hat, Except.error.injEq] at h
      exact h ▸ rfl
    | some found =>
      cases found with
      | folder inside =>
        simp only [hat, Except.error.injEq] at h
        exact h ▸ rfl
      | file content => simp [hat] at h

end Disk

end Lockstep
