import Lockstep.NameSet

/-!
# Lockstep — tables of locked coordinates

Which configurations lock which coordinate. The coordinates stand in the order
in which each first entered the table, none twice; a coordinate may stay in the
table with an empty set.

* `keys_alter`           — a changed coordinate keeps its place, a new one goes to the end.
* `get_alter`            — only the set of that coordinate changes.
-/

namespace Lockstep

-- ---------------------------------------------------------------------------
-- Coordinates
-- ---------------------------------------------------------------------------

/-- A concrete external artifact. -/
structure Coordinate where
  group : Text
  artifact : Text
  version : Text
  deriving DecidableEq, Repr

namespace Coordinate

/-- The three fields, with a colon between two of them. -/
def text (c : Coordinate) : Text :=
  c.group ++ char ':' :: (c.artifact ++ char ':' :: c.version)

/-- The three fields, by which coordinates are ordered. -/
def fields (c : Coordinate) : List Text := [c.group, c.artifact, c.version]

/-- The coordinate of which a text is written, if it has exactly two colons. -/
def ofText? (t : Text) : Option Coordinate :=
  match t.splitOn (char ':') with
  | [group, artifact, version] => some ⟨group, artifact, version⟩
  | _ => none

/-- Coordinates by group, then artifact, then version. -/
def sort (cs : List Coordinate) : List Coordinate :=
  Sorting.sortBy (fun a b => Sorting.upTo a.fields b.fields) cs

/-- The number of different coordinates. -/
def countDistinct (cs : List Coordinate) : Nat := cs.eraseDups.length

end Coordinate

-- ---------------------------------------------------------------------------
-- Tables
-- ---------------------------------------------------------------------------

/-- Coordinates in order of entry, each with the configurations that lock it. -/
structure LockTable where
  entries : List (Coordinate × NameSet)
  nodup : (entries.map (·.1)).Nodup
  deriving DecidableEq, Repr

namespace LockTable

/-- The table without coordinates. -/
def empty : LockTable := ⟨[], List.nodup_nil⟩

instance : EmptyCollection LockTable := ⟨empty⟩

instance : Inhabited LockTable := ⟨∅⟩

/-- The coordinates, in order of entry. -/
def keys (t : LockTable) : List Coordinate := t.entries.map (·.1)

/-- The configurations that lock a coordinate; none if it is not in the table. -/
def get (t : LockTable) (c : Coordinate) : NameSet :=
  (t.entries.lookup c).getD ∅

/-- The number of coordinates in the table. -/
def size (t : LockTable) : Nat := t.entries.length

/-- All configurations that lock something. -/
def names (t : LockTable) : NameSet :=
  t.entries.foldl (fun s e => s ∪ e.2) ∅

-- ---------------------------------------------------------------------------
-- Changing one coordinate
-- ---------------------------------------------------------------------------

/-- Changes the set of `c` in a list of entries, which it joins at the end if it is new. -/
def alterEntries (c : Coordinate) (f : NameSet → NameSet) :
    List (Coordinate × NameSet) → List (Coordinate × NameSet)
  | [] => [(c, f ∅)]
  | e :: rest => if e.1 = c then (c, f e.2) :: rest else e :: alterEntries c f rest

theorem keys_alterEntries (c : Coordinate) (f : NameSet → NameSet) (es : List (Coordinate × NameSet)) :
    (alterEntries c f es).map (·.1) =
      if c ∈ es.map (·.1) then es.map (·.1) else es.map (·.1) ++ [c] := by
  induction es with
  | nil => simp [alterEntries]
  | cons e rest ih =>
    simp only [alterEntries]
    split
    · next h => simp [h]
    · next h =>
      have h' : ¬ c = e.1 := fun hc => h hc.symm
      simp only [List.map_cons, ih, List.mem_cons, h', false_or]
      split <;> rfl

/-- The table with the set of one coordinate changed; a new coordinate starts from
the empty set. -/
def alter (t : LockTable) (c : Coordinate) (f : NameSet → NameSet) : LockTable where
  entries := alterEntries c f t.entries
  nodup := by
    rw [keys_alterEntries]
    split
    · exact t.nodup
    · next h =>
      refine List.nodup_append.2 ⟨t.nodup, by simp, fun a ha b hb => ?_⟩
      simp only [List.mem_singleton] at hb
      subst hb
      exact fun e => h (e ▸ ha)

theorem keys_alter (t : LockTable) (c : Coordinate) (f : NameSet → NameSet) :
    (t.alter c f).keys = if c ∈ t.keys then t.keys else t.keys ++ [c] :=
  keys_alterEntries c f t.entries

theorem get_alter (t : LockTable) (c d : Coordinate) (f : NameSet → NameSet) :
    (t.alter c f).get d = if d = c then f (t.get c) else t.get d := by
  have : ∀ es : List (Coordinate × NameSet),
      ((alterEntries c f es).lookup d).getD ∅ =
        if d = c then f ((es.lookup c).getD ∅) else (es.lookup d).getD ∅ := by
    intro es
    induction es with
    | nil =>
      by_cases h : d = c
      · simp [alterEntries, h]
      · simp [alterEntries, List.lookup_cons, beq_eq_false_iff_ne.2 h, h]
    | cons e rest ih =>
      obtain ⟨k, s⟩ := e
      simp only [alterEntries]
      split
      · next h =>
        subst h
        by_cases hd : d = k
        · simp [hd]
        · simp [List.lookup_cons, beq_eq_false_iff_ne.2 hd, hd]
      · next h =>
        have hck : (c == k) = false := by simpa using fun e => h e.symm
        by_cases hdk : d = k
        · subst hdk
          simp [h]
        · simp only [List.lookup_cons, hck, beq_eq_false_iff_ne.2 hdk, ih]
  exact this t.entries

/-- Adds names to the set of a coordinate. -/
def addAll (t : LockTable) (c : Coordinate) (names : NameSet) : LockTable :=
  t.alter c (· ∪ names)

/-- Adds one name to the set of a coordinate. -/
def add (t : LockTable) (c : Coordinate) (name : Text) : LockTable :=
  t.alter c (·.insert name)

/-- Gives a coordinate a set, in place of any it has. -/
def put (t : LockTable) (c : Coordinate) (names : NameSet) : LockTable :=
  t.alter c fun _ => names

/-- Takes all names from the set of a coordinate, which keeps its place. -/
def clear (t : LockTable) (c : Coordinate) : LockTable :=
  if c ∈ t.keys then t.put c ∅ else t

/-- The table of a list of entries; of two sets for one coordinate the later counts. -/
def ofList (es : List (Coordinate × NameSet)) : LockTable :=
  es.foldl (fun t e => t.put e.1 e.2) ∅

end LockTable

end Lockstep
