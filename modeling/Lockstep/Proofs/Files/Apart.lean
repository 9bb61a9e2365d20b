import Lockstep.Proofs.Files.ReadWrite

/-!
# Lockstep — writing to different files

Two paths are about the same file if they lead to the same place. A write to one
file is not seen in any other (`read_write_of_apart`), and two writes to different
files leave the same disk in either order (`write_comm`).

What is at a place is said by the contents there: nothing, a directory, or a file
with its bytes. This is all that reading looks at (`read_eq`).
-/

namespace Lockstep

/-- The bytes of a file; a directory has none. -/
def Entry.content? : Entry → Option (List UInt8)
  | .file content => some content
  | .folder _ => none

-- ---------------------------------------------------------------------------
-- Directories
-- ---------------------------------------------------------------------------

namespace Listing

/-- Nothing is seen of a write at any other place. A directory shows no contents, so
that even the directories above the file look as they did. -/
theorem content_setFile_of_ne (content : List UInt8) (l : Listing) {place names : List Text}
    (hne : place ≠ names) :
    ((l.setFile content place).at? names).map Entry.content? =
      (l.at? names).map Entry.content? := by
  induction names generalizing l place with
  | nil => rfl
  | cons first rest ih =>
    cases place with
    | nil => rw [setFile_nil]
    | cons name below =>
      -- the place and the names go the same way only as long as their first names agree
      by_cases hFirst : name = first
      · subst hFirst
        have hBelow : below ≠ rest := fun h => hne (by rw [h])
        rw [at?_cons, at?_cons, get?_setFile_self]
        cases l.get? name with
        | none => rfl
        | some e =>
          cases rest with
          | nil =>
            cases e with
            | file old => simp [Entry.setFile, Entry.at?, Entry.content?, hBelow]
            | folder inside => rfl
          | cons next rest =>
            cases e with
            | file old => rfl
            | folder inside => exact ih inside hBelow
      · rw [at?_cons, at?_cons, get?_setFile_of_ne content l below hFirst]

/-- Writing below the first entry of a listing leaves the others alone. -/
theorem setFile_cons_self (content : List UInt8) (n : Text) (e : Entry) (rest : Listing)
    (below : List Text) :
    (cons n e rest).setFile content (n :: below) = cons n (e.setFile content below) rest := by
  cases e <;> simp [cons, setFile, Entry.setFile]

/-- Writing below another name leaves the first entry of a listing alone. -/
theorem setFile_cons_of_ne (content : List UInt8) {n name : Text} (h : n ≠ name) (e : Entry)
    (rest : Listing) (below : List Text) :
    (cons n e rest).setFile content (name :: below) =
      cons n e (rest.setFile content (name :: below)) := by
  cases e <;> simp [cons, setFile, h]

/-- Writes at two places change places in a listing if they do in its first entry
and in the rest. The file and the folder in front of a listing share this step. -/
theorem setFile_comm_cons {content content' : List UInt8} {n : Text} {e : Entry} {rest : Listing}
    {place place' : List Text} (hne : place ≠ place')
    (he : ∀ below below', below ≠ below' →
      (e.setFile content below).setFile content' below' =
        (e.setFile content' below').setFile content below)
    (hRest : (rest.setFile content place).setFile content' place' =
      (rest.setFile content' place').setFile content place) :
    ((cons n e rest).setFile content place).setFile content' place' =
      ((cons n e rest).setFile content' place').setFile content place := by
  cases place with
  | nil => rw [setFile_nil, setFile_nil]
  | cons name below =>
    cases place' with
    | nil => rw [setFile_nil, setFile_nil]
    | cons name' below' =>
      -- both writes go into the first entry, or one of them, or neither
      by_cases hn : n = name
      · subst hn
        by_cases hn' : n = name'
        · subst hn'
          have hBelow : below ≠ below' := fun h => hne (by rw [h])
          rw [setFile_cons_self, setFile_cons_self, setFile_cons_self, setFile_cons_self,
            he below below' hBelow]
        · rw [setFile_cons_self, setFile_cons_of_ne _ hn', setFile_cons_of_ne _ hn',
            setFile_cons_self]
      · by_cases hn' : n = name'
        · subst hn'
          rw [setFile_cons_of_ne _ hn, setFile_cons_self, setFile_cons_self,
            setFile_cons_of_ne _ hn]
        · rw [setFile_cons_of_ne _ hn, setFile_cons_of_ne _ hn', setFile_cons_of_ne _ hn',
            setFile_cons_of_ne _ hn, hRest]

/-- Two writes at different places leave the same listing in either order. The induction is on the
listing; where it begins with a directory, both writes may go into this, at different places of it.
-/
theorem setFile_comm (content content' : List UInt8) (l : Listing) {place place' : List Text}
    (hne : place ≠ place') :
    (l.setFile content place).setFile content' place' =
      (l.setFile content' place').setFile content place := by
  induction l generalizing place place' with
  | nil => rfl
  | file n old rest ih =>
    refine setFile_comm_cons (e := .file old) hne (fun below below' hBelow => ?_) (ih hne)
    -- a file is written by no further names, which can be true of one of the two ways only
    by_cases hb : below = []
    · have hb' : below' ≠ [] := fun h => hBelow (hb.trans h.symm)
      simp [Entry.setFile, hb, hb']
    · simp [Entry.setFile, hb]
  | folder n inside rest ihInside ih =>
    refine setFile_comm_cons (e := .folder inside) hne (fun below below' hBelow => ?_) (ih hne)
    simp only [Entry.setFile, ihInside hBelow]

end Listing

-- ---------------------------------------------------------------------------
-- The disk
-- ---------------------------------------------------------------------------

namespace Disk

variable {d d' : Disk} {p q : Path} {content content' : List UInt8}

/-- Both paths lead to the same place. -/
def SamePlace (d : Disk) (p q : Path) : Prop :=
  ∃ place, d.resolve p.text = .ok place ∧ d.resolve q.text = .ok place

theorem SamePlace.symm (h : d.SamePlace p q) : d.SamePlace q p := by
  obtain ⟨place, hp, hq⟩ := h
  exact ⟨place, hq, hp⟩

theorem eq_of_root_eq (hRoot : d.root = d'.root) (hWorking : d.working = d'.working) : d = d' := by
  cases d
  cases d'
  simp only at hRoot hWorking
  subst hRoot hWorking
  rfl

/-- The bytes of the file at a place, if there is one. -/
def contents? (d : Disk) (place : List Text) : Option (List UInt8) :=
  ((d.root.at? place).map Entry.content?).join

/-- Reading looks at nothing but the contents at the place where the path leads.
A disk is therefore told from another by `Entry.content?` alone, as far as
reading goes. -/
theorem read_eq (d : Disk) (p : Path) :
    d.read p =
      match d.resolve p.text with
      | .error fault => .error ⟨fault, p.text⟩
      | .ok place =>
        match (d.root.at? place).map Entry.content? with
        | none => .error ⟨.notFound, p.text⟩
        | some none => .error ⟨.isDirectory, p.text⟩
        | some (some content) => .ok content := by
  unfold read entry
  cases d.resolve p.text with
  | error fault => rfl
  | ok place =>
    cases hat : d.root.at? place with
    | none => simp [hat]
    -- a directory has no contents, which is why it cannot be read
    | some e => cases e <;> simp [hat, Entry.content?]

/-- What is read by a path are the contents of the place where it leads. -/
theorem read_eq_ok_iff_contents? {place : List Text} {bytes : List UInt8}
    (h : d.resolve p.text = .ok place) :
    d.read p = .ok bytes ↔ d.contents? place = some bytes := by
  rw [read_eq, h, contents?]
  cases hat : (d.root.at? place).map Entry.content? with
  | none => simp [hat]
  | some content => cases content <;> simp [hat]

theorem write_of_resolve_eq_error {fault : PathFault} (h : d.resolve p.text = .error fault) :
    d.write p content = d := by
  rw [write, h]

theorem root_write {place : List Text} (h : d.resolve p.text = .ok place) :
    (d.write p content).root = d.root.setFile content place := by
  rw [write, h]

theorem working_write (d : Disk) (p : Path) (content : List UInt8) :
    (d.write p content).working = d.working := by
  rw [write]
  split <;> rfl

/-- What is at any other place is as it was before a write. -/
theorem content_write {place : List Text} (h : d.resolve p.text ≠ .ok place) :
    ((d.write p content).root.at? place).map Entry.content? =
      (d.root.at? place).map Entry.content? := by
  cases hp : d.resolve p.text with
  | error fault => rw [write_of_resolve_eq_error hp]
  | ok written =>
    rw [root_write hp]
    exact Listing.content_setFile_of_ne content d.root fun heq => h (by rw [hp, heq])

theorem contents?_write {place : List Text} (h : d.resolve p.text ≠ .ok place) :
    (d.write p content).contents? place = d.contents? place := by
  unfold contents?
  rw [content_write h]

/-- A path that leads elsewhere, or nowhere, is read as before the write. The answer
is the same down to the error, which names the path that was asked for. -/
theorem read_write_of_apart (h : ¬ d.SamePlace p q) : (d.write p content).read q = d.read q := by
  rw [read_eq, read_eq, resolve_write]
  cases hq : d.resolve q.text with
  | error fault => rfl
  | ok place =>
    have hp : d.resolve p.text ≠ .ok place := fun hp => h ⟨place, hp, hq⟩
    simp only [content_write hp]

/-- Two writes to different files can be carried out in either order. One that leads
nowhere changes nothing, on either disk, since a write does not move what paths lead
to (`resolve_write`). -/
theorem write_comm (h : ¬ d.SamePlace p q) :
    (d.write p content).write q content' = (d.write q content').write p content := by
  cases hp : d.resolve p.text with
  | error fault =>
    have hp' : (d.write q content').resolve p.text = .error fault := by rw [resolve_write, hp]
    rw [write_of_resolve_eq_error hp, write_of_resolve_eq_error hp']
  -- each of the two paths leads to the same place before and after the other write
  | ok place =>
    cases hq : d.resolve q.text with
    | error fault =>
      have hq' : (d.write p content).resolve q.text = .error fault := by rw [resolve_write, hq]
      rw [write_of_resolve_eq_error hq, write_of_resolve_eq_error hq']
    | ok place' =>
      have hne : place ≠ place' := fun heq => h ⟨place, hp, by rw [hq, heq]⟩
      have hp' : (d.write q content').resolve p.text = .ok place := by rw [resolve_write, hp]
      have hq' : (d.write p content).resolve q.text = .ok place' := by rw [resolve_write, hq]
      apply eq_of_root_eq
      · rw [root_write hq', root_write hp, root_write hp', root_write hq]
        exact Listing.setFile_comm content content' d.root hne
      · simp only [working_write]

end Disk

end Lockstep
