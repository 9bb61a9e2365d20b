import Lockstep.Proofs.Lock.Table
import Lockstep.Reconcile

/-!
# Lockstep — what a reconciled lock records

Reconciling is described by what it records about one name and one coordinate at
a time. A name is **recomputed** if the lock knows it and the project has a
resolvable configuration of that name (`Recomputes`). A recomputed name has what
the project says (`Locks`, `LocksNothing`), every other name has what the lock
said before.

* `locked_reconcile`  — the whole table as one sequence of added entries: those that
  are carried over, then those that are recorded. Both views of the table follow.
* `reconcile_exact`   — the sets, the empty names, and the coordinates in order.
-/

namespace Lockstep

-- ---------------------------------------------------------------------------
-- What a project says about a name
-- ---------------------------------------------------------------------------

namespace Project

variable {p : Project} {siblings : List Sibling}

/-- The dependency has the group of the project, and a sibling has its group and name. -/
def SiblingEdge (p : Project) (siblings : List Sibling) (d : Coordinate) : Prop :=
  p.group = some d.group ∧ (⟨d.group, d.artifact⟩ : Sibling) ∈ siblings

instance (d : Coordinate) : Decidable (p.SiblingEdge siblings d) :=
  inferInstanceAs (Decidable (_ ∧ _))

/-- The project has a resolvable configuration of this name. -/
def CanResolve (p : Project) (n : Text) : Prop :=
  ∃ conf ∈ p.configurations, conf.resolvable = true ∧ conf.name = n

instance (n : Text) : Decidable (p.CanResolve n) :=
  inferInstanceAs (Decidable (∃ conf ∈ p.configurations, _))

/-- A resolvable configuration of this name depends on the coordinate, not as on a sibling. -/
def Locks (p : Project) (siblings : List Sibling) (n : Text) (d : Coordinate) : Prop :=
  ∃ conf ∈ p.configurations, conf.resolvable = true ∧ conf.name = n ∧
    d ∈ conf.resolved ∧ ¬ p.SiblingEdge siblings d

/-- A resolvable configuration of this name depends on nothing but siblings. -/
def LocksNothing (p : Project) (siblings : List Sibling) (n : Text) : Prop :=
  ∃ conf ∈ p.configurations, conf.resolvable = true ∧ conf.name = n ∧
    ∀ d ∈ conf.resolved, p.SiblingEdge siblings d

/-- The check for a sibling is about group and name alone; the version plays no part in it. -/
theorem isSiblingEdge_iff {d : Coordinate} :
    p.isSiblingEdge siblings d = true ↔ p.SiblingEdge siblings d := by
  rw [isSiblingEdge, SiblingEdge, Bool.and_eq_true, decide_eq_true_eq, List.contains_iff_mem,
    eq_comm]

theorem mem_external {conf : Configuration} {d : Coordinate} :
    d ∈ p.external siblings conf ↔ d ∈ conf.resolved ∧ ¬ p.SiblingEdge siblings d := by
  rw [external, List.mem_filter, ← isSiblingEdge_iff, Bool.not_eq_true', Bool.not_eq_true]

/-- The recorded dependencies are the dependencies in their order, without the siblings. -/
theorem external_eq (conf : Configuration) :
    p.external siblings conf = conf.resolved.filter fun d => !decide (p.SiblingEdge siblings d) := by
  apply List.filter_congr
  intro d _
  rw [Bool.eq_iff_iff, Bool.not_eq_true', Bool.not_eq_true', decide_eq_false_iff_not,
    ← isSiblingEdge_iff, Bool.not_eq_true]

theorem external_eq_nil_iff {conf : Configuration} :
    p.external siblings conf = [] ↔ ∀ d ∈ conf.resolved, p.SiblingEdge siblings d := by
  rw [external, List.filter_eq_nil_iff]
  simp only [Bool.not_eq_true', Bool.not_eq_false, isSiblingEdge_iff]

theorem mem_recomputable {tracked : NameSet} {conf : Configuration} :
    conf ∈ p.recomputable tracked ↔
      conf ∈ p.configurations ∧ conf.resolvable = true ∧ conf.name ∈ tracked := by
  rw [recomputable, List.mem_filter, Bool.and_eq_true, decide_eq_true_eq]

end Project

namespace Lock

-- ---------------------------------------------------------------------------
-- Recomputed names
-- ---------------------------------------------------------------------------

/-- The lock knows the name, and the project has a resolvable configuration of that name. -/
def Recomputes (old : Lock) (p : Project) (n : Text) : Prop :=
  (n ∈ old.empty ∨ ∃ c ∈ old.locked.keys, n ∈ old.locked.get c) ∧ p.CanResolve n

instance (old : Lock) (p : Project) (n : Text) : Decidable (old.Recomputes p n) :=
  inferInstanceAs (Decidable ((_ ∨ ∃ c ∈ old.locked.keys, _) ∧ _))

theorem recomputes_iff {old : Lock} {p : Project} {n : Text} :
    old.Recomputes p n ↔ n ∈ old.tracked ∧ p.CanResolve n := by
  rw [Recomputes, mem_tracked]
  refine and_congr_left' (or_congr_right ⟨?_, ?_⟩)
  · rintro ⟨c, -, hn⟩
    exact ⟨c, hn⟩
  · rintro ⟨c, hn⟩
    exact ⟨c, LockTable.mem_keys_of_mem_get hn, hn⟩

/-- A resolvable configuration is recomputed if the lock knows its name. -/
theorem recomputes_name_iff {old : Lock} {p : Project} {conf : Configuration}
    (hConf : conf ∈ p.configurations) (hRes : conf.resolvable = true) :
    old.Recomputes p conf.name ↔ conf.name ∈ old.tracked := by
  rw [recomputes_iff]
  exact and_iff_left ⟨conf, hConf, hRes, rfl⟩

/-- The set of recomputed names, which is computed once, has just these names. -/
theorem mem_recomputed {old : Lock} {p : Project} {n : Text} :
    n ∈ old.recomputed p ↔ old.Recomputes p n := by
  rw [recomputed, NameSet.mem_ofList, List.mem_map, recomputes_iff, Project.CanResolve]
  constructor
  · rintro ⟨conf, hConf, rfl⟩
    obtain ⟨hMem, hRes, hTracked⟩ := Project.mem_recomputable.1 hConf
    exact ⟨hTracked, conf, hMem, hRes, rfl⟩
  · rintro ⟨hTracked, conf, hMem, hRes, rfl⟩
    exact ⟨conf, Project.mem_recomputable.2 ⟨hMem, hRes, hTracked⟩, rfl⟩

-- ---------------------------------------------------------------------------
-- The entries that are carried over, and those that are recorded
-- ---------------------------------------------------------------------------

/-- The entries of a lock without some names; what has no name left is no entry. -/
def carriedEntries (old : Lock) (gone : NameSet) : List (Coordinate × NameSet) :=
  (old.locked.entries.map fun e => (e.1, e.2 \ gone)).filter fun e => !e.2.isEmpty

/-- What configurations record, one dependency after the other. -/
def recordedEntries (p : Project) (siblings : List Sibling) (confs : List Configuration) :
    List (Coordinate × NameSet) :=
  confs.flatMap fun conf =>
    (p.external siblings conf).map fun d => (d, NameSet.singleton conf.name)

/-- What is carried over is the table of the entries without the names that are
gone. The loop leaves out an entry that has lost all its names, which
`carriedEntries` does by a filter. -/
theorem locked_carried (old : Lock) (gone : NameSet) :
    (old.carried gone).locked = (∅ : LockTable).addEntries (old.carriedEntries gone) := by
  -- for any table to begin with, as the loop goes on with the one it has made
  have hFold : ∀ (es : List (Coordinate × NameSet)) (t : LockTable),
      es.foldl (fun t e =>
        let kept := e.2 \ gone
        if kept.isEmpty then t else t.addAll e.1 kept) t =
      t.addEntries ((es.map fun e => (e.1, e.2 \ gone)).filter fun e => !e.2.isEmpty) := by
    intro es
    induction es with
    | nil => exact fun _ => rfl
    | cons e rest ih =>
      intro t
      rw [List.foldl_cons, ih]
      cases h : (e.2 \ gone).isEmpty <;> simp [h]
  exact hFold old.locked.entries ∅

/-- What is recorded for one configuration are entries with its name alone. -/
theorem locked_record (l : Lock) (n : Text) (cs : List Coordinate) :
    (l.record n cs).locked = l.locked.addEntries (cs.map fun c => (c, NameSet.singleton n)) := by
  -- for any lock to begin with, as the loop goes on with the one it has made
  have hFold : ∀ (cs : List Coordinate) (l : Lock), (cs.foldl (fun l c => l.add c n) l).locked =
      l.locked.addEntries (cs.map fun c => (c, NameSet.singleton n)) := by
    intro cs
    induction cs with
    | nil => exact fun _ => rfl
    | cons c rest ih =>
      intro l
      rw [List.foldl_cons, ih, add, LockTable.add_eq_addAll]
      rfl
  rw [record]
  cases cs with
  | nil => rfl
  | cons c rest => exact hFold (c :: rest) l

/-- A configuration joins the names with nothing to lock if nothing is recorded for
it. It may be among them already, or join by another configuration of its name. -/
theorem mem_empty_record {l : Lock} {n m : Text} {cs : List Coordinate} :
    m ∈ (l.record n cs).empty ↔ m ∈ l.empty ∨ (n = m ∧ cs = []) := by
  have hFold : ∀ (cs : List Coordinate) (l : Lock),
      (cs.foldl (fun l c => l.add c n) l).empty = l.empty := by
    intro cs
    induction cs with
    | nil => exact fun _ => rfl
    | cons c rest ih => exact fun l => ih (l.add c n)
  rw [record]
  cases cs with
  | nil => simp [addEmpty, or_comm, eq_comm]
  | cons c rest =>
    rw [if_neg (by simp), hFold]
    simp

variable {p : Project} {siblings : List Sibling}

/-- Recording configurations one by one adds the entries of all of them to the table. -/
theorem locked_foldl_record (confs : List Configuration) (l : Lock) :
    (confs.foldl (fun l conf => l.record conf.name (p.external siblings conf)) l).locked =
      l.locked.addEntries (recordedEntries p siblings confs) := by
  induction confs generalizing l with
  | nil => rfl
  | cons conf rest ih =>
    rw [List.foldl_cons, ih, locked_record, ← LockTable.addEntries_append]
    rfl

/-- Of the configurations that are recorded, those with no dependency to record have
nothing to lock. -/
theorem mem_empty_foldl_record {confs : List Configuration} {l : Lock} {n : Text} :
    n ∈ (confs.foldl (fun l conf => l.record conf.name (p.external siblings conf)) l).empty ↔
      n ∈ l.empty ∨ ∃ conf ∈ confs, conf.name = n ∧ p.external siblings conf = [] := by
  induction confs generalizing l with
  | nil => simp
  | cons conf rest ih => simp [ih, mem_empty_record, or_assoc]

/-- The table of a reconciled lock: what is carried over, then what is recorded.
Sets and order of the table both follow from it by what `addEntries` does. -/
theorem locked_reconcile (old : Lock) (p : Project) (siblings : List Sibling) :
    (old.reconcile p siblings).locked =
      ((∅ : LockTable).addEntries (old.carriedEntries (old.recomputed p))).addEntries
        (recordedEntries p siblings (p.recomputable old.tracked)) := by
  rw [reconcile, locked_foldl_record, locked_carried]

-- ---------------------------------------------------------------------------
-- The view through names
-- ---------------------------------------------------------------------------

/-- An entry is carried over with the names that are not gone, if there are any. -/
theorem mem_carriedEntries {old : Lock} {gone : NameSet} {e : Coordinate × NameSet} :
    e ∈ old.carriedEntries gone ↔
      e.1 ∈ old.locked.keys ∧ e.2 = old.locked.get e.1 \ gone ∧ ∃ n, n ∈ e.2 := by
  rw [carriedEntries, List.mem_filter, Bool.not_eq_true', NameSet.isEmpty_eq_false_iff,
    List.mem_map]
  constructor
  · rintro ⟨⟨⟨c, s⟩, hMem, rfl⟩, hn⟩
    obtain ⟨hc, rfl⟩ := LockTable.mem_entries_iff.1 hMem
    exact ⟨hc, rfl, hn⟩
  · obtain ⟨c, s⟩ := e
    rintro ⟨hc, hs, hn⟩
    exact ⟨⟨(c, old.locked.get c), LockTable.mem_entries_iff.2 ⟨hc, rfl⟩, Prod.ext rfl hs.symm⟩, hn⟩

/-- Each recorded entry comes from one configuration and has its name alone. -/
theorem mem_recordedEntries {confs : List Configuration} {e : Coordinate × NameSet} :
    e ∈ recordedEntries p siblings confs ↔
      ∃ conf ∈ confs, e.1 ∈ p.external siblings conf ∧ e.2 = NameSet.singleton conf.name := by
  rw [recordedEntries, List.mem_flatMap]
  refine exists_congr fun conf => and_congr_right fun _ => ?_
  obtain ⟨c, s⟩ := e
  rw [List.mem_map]
  constructor
  · rintro ⟨d, hd, heq⟩
    obtain ⟨rfl, rfl⟩ := Prod.mk.inj heq
    exact ⟨hd, rfl⟩
  · rintro ⟨hd, rfl⟩
    exact ⟨c, hd, rfl⟩

/-- A name locks a coordinate as before, unless it is recomputed; then as the
project says. The two cases exclude each other, and the order in which
configurations are recorded plays no part. -/
theorem mem_get_reconcile {old : Lock} {c : Coordinate} {n : Text} :
    n ∈ (old.reconcile p siblings).locked.get c ↔
      (¬ old.Recomputes p n ∧ n ∈ old.locked.get c) ∨
        (old.Recomputes p n ∧ p.Locks siblings n c) := by
  rw [locked_reconcile, LockTable.mem_get_addEntries, LockTable.mem_get_addEntries,
    ← mem_recomputed]
  -- what is carried over, from the left and from the right, and then what is recorded
  refine or_congr ⟨?_, ?_⟩ ⟨?_, ?_⟩
  · rintro (h | ⟨e, he, rfl, hn⟩)
    · exact absurd h (NameSet.not_mem_empty n)
    · rw [(mem_carriedEntries.1 he).2.1, NameSet.mem_diff] at hn
      exact hn.symm
  · rintro ⟨hRec, hn⟩
    have hKept : n ∈ old.locked.get c \ old.recomputed p := NameSet.mem_diff.2 ⟨hn, hRec⟩
    exact Or.inr ⟨(c, old.locked.get c \ old.recomputed p),
      mem_carriedEntries.2 ⟨LockTable.mem_keys_of_mem_get hn, rfl, n, hKept⟩, rfl, hKept⟩
  · rintro ⟨e, he, rfl, hn⟩
    obtain ⟨conf, hConf, hext, hSet⟩ := mem_recordedEntries.1 he
    obtain ⟨hMem, hRes, hTracked⟩ := Project.mem_recomputable.1 hConf
    obtain ⟨hDep, hSib⟩ := Project.mem_external.1 hext
    rw [hSet, NameSet.mem_singleton] at hn
    refine ⟨mem_recomputed.2 (recomputes_iff.2 ⟨hn ▸ hTracked, conf, hMem, hRes, hn.symm⟩), ?_⟩
    exact ⟨conf, hMem, hRes, hn.symm, hDep, hSib⟩
  · rintro ⟨hRec, conf, hMem, hRes, rfl, hDep, hSib⟩
    have hTracked := (recomputes_iff.1 (mem_recomputed.1 hRec)).1
    exact ⟨(c, NameSet.singleton conf.name),
      mem_recordedEntries.2 ⟨conf, Project.mem_recomputable.2 ⟨hMem, hRes, hTracked⟩,
        Project.mem_external.2 ⟨hDep, hSib⟩, rfl⟩, rfl, NameSet.mem_singleton.2 rfl⟩

/-- A name has nothing to lock as before, unless it is recomputed; then as the project says.
Configurations of one name may disagree, and then the name has nothing to lock and locks something.
-/
theorem mem_empty_reconcile {old : Lock} {n : Text} :
    n ∈ (old.reconcile p siblings).empty ↔
      (¬ old.Recomputes p n ∧ n ∈ old.empty) ∨
        (old.Recomputes p n ∧ p.LocksNothing siblings n) := by
  rw [reconcile, mem_empty_foldl_record, ← mem_recomputed]
  -- the names that are carried over, and then those of configurations without a dependency to
  -- record
  refine or_congr ?_ ⟨?_, ?_⟩
  · rw [carried, NameSet.mem_diff, and_comm]
  · rintro ⟨conf, hConf, rfl, hNone⟩
    obtain ⟨hMem, hRes, hTracked⟩ := Project.mem_recomputable.1 hConf
    exact ⟨mem_recomputed.2 (recomputes_iff.2 ⟨hTracked, conf, hMem, hRes, rfl⟩),
      conf, hMem, hRes, rfl, Project.external_eq_nil_iff.1 hNone⟩
  · rintro ⟨hRec, conf, hMem, hRes, rfl, hNone⟩
    have hTracked := (recomputes_iff.1 (mem_recomputed.1 hRec)).1
    exact ⟨conf, Project.mem_recomputable.2 ⟨hMem, hRes, hTracked⟩, rfl,
      Project.external_eq_nil_iff.2 hNone⟩

-- ---------------------------------------------------------------------------
-- The coordinates in order
-- ---------------------------------------------------------------------------

/-- The coordinates that some name which is not recomputed still locks, in the order of the lock. -/
def surviving (old : Lock) (p : Project) : List Coordinate :=
  old.locked.keys.filter fun c =>
    (old.locked.get c).toList.any fun n => !decide (old.Recomputes p n)

/-- The dependencies recorded for recomputed names, in the order in which they are met. -/
def met (old : Lock) (p : Project) (siblings : List Sibling) : List Coordinate :=
  p.configurations.flatMap fun conf =>
    if conf.resolvable = true ∧ old.Recomputes p conf.name then
      conf.resolved.filter fun d => !decide (p.SiblingEdge siblings d)
    else []

/-- The coordinates that are carried over are those that survive, in the order of the lock. -/
theorem map_fst_carriedEntries (old : Lock) (p : Project) :
    (old.carriedEntries (old.recomputed p)).map (·.1) = old.surviving p := by
  rw [carriedEntries, surviving, LockTable.keys, List.filter_map, List.map_map, List.filter_map]
  -- both sides keep an entry if a name is left in its set
  have hSame : old.locked.entries.filter ((fun e => !e.2.isEmpty) ∘ fun e =>
        (e.1, e.2 \ old.recomputed p)) =
      old.locked.entries.filter ((fun c => (old.locked.get c).toList.any fun n =>
        !decide (old.Recomputes p n)) ∘ (·.1)) := by
    apply List.filter_congr
    rintro ⟨c, s⟩ hMem
    obtain ⟨-, rfl⟩ := LockTable.mem_entries_iff.1 hMem
    rw [Bool.eq_iff_iff, Function.comp_apply, Function.comp_apply, Bool.not_eq_true',
      NameSet.isEmpty_eq_false_iff, List.any_eq_true]
    refine exists_congr fun n => ?_
    rw [NameSet.mem_diff, mem_recomputed, NameSet.mem_toList, Bool.not_eq_true',
      decide_eq_false_iff_not]
  rw [hSame]
  rfl

/-- The coordinates that are recorded are those that are met, in the order of the
project. `met` asks whether a name is recomputed, the loop whether the lock knows
it; for a resolvable configuration these are the same. -/
theorem map_fst_recordedEntries (old : Lock) (p : Project) (siblings : List Sibling) :
    (recordedEntries p siblings (p.recomputable old.tracked)).map (·.1) = old.met p siblings := by
  -- for any part of the configurations, so that the induction goes through while `Recomputes` is
  -- about all of them
  have hSplit : ∀ confs : List Configuration, (∀ conf ∈ confs, conf ∈ p.configurations) →
      (recordedEntries p siblings
        (confs.filter fun c => c.resolvable && decide (c.name ∈ old.tracked))).map (·.1) =
      confs.flatMap fun conf =>
        if conf.resolvable = true ∧ old.Recomputes p conf.name then
          conf.resolved.filter fun d => !decide (p.SiblingEdge siblings d)
        else [] := by
    intro confs
    induction confs with
    | nil => exact fun _ => rfl
    | cons conf rest ih =>
      intro hAll
      have ihrest := ih fun c hc => hAll c (List.mem_cons_of_mem _ hc)
      have hIff : (conf.resolvable = true ∧ old.Recomputes p conf.name) ↔
          (conf.resolvable && decide (conf.name ∈ old.tracked)) = true := by
        rw [Bool.and_eq_true, decide_eq_true_eq]
        exact and_congr_right (recomputes_name_iff (hAll conf List.mem_cons_self))
      rw [List.flatMap_cons, ← ihrest, List.filter_cons]
      by_cases h : conf.resolvable = true ∧ old.Recomputes p conf.name
      · rw [if_pos h, if_pos (hIff.1 h), ← Project.external_eq]
        simp [recordedEntries, List.map_map, Function.comp_def]
      · rw [if_neg h, if_neg (fun hc => h (hIff.2 hc)), List.nil_append]
  exact hSplit p.configurations fun _ h => h

/-- Coordinates that survive stay where they were; those newly met follow, each
where it is met first. A coordinate that lost all its names and is met again counts
as newly met. -/
theorem keys_reconcile (old : Lock) (p : Project) (siblings : List Sibling) :
    (old.reconcile p siblings).locked.keys =
      old.surviving p ++
        ((old.met p siblings).filter fun c => !(old.surviving p).contains c).eraseDups := by
  have hCarried : ((∅ : LockTable).addEntries (old.carriedEntries (old.recomputed p))).keys =
      old.surviving p := by
    rw [LockTable.keys, LockTable.entries_addEntries, ← map_fst_carriedEntries]
    · rfl
    · rw [LockTable.keys_empty, List.nil_append, map_fst_carriedEntries]
      exact old.locked.nodup.filter _
  rw [locked_reconcile, LockTable.keys_addEntries, hCarried, map_fst_recordedEntries]
  rfl

/-- No coordinate of a reconciled lock has an empty set. What lost all its names is
not carried over, and what is recorded has a name. -/
theorem ne_empty_of_mem_entries_reconcile {old : Lock} {e : Coordinate × NameSet}
    (h : e ∈ (old.reconcile p siblings).locked.entries) : e.2 ≠ ∅ := by
  obtain ⟨c, s⟩ := e
  obtain ⟨hc, rfl⟩ := LockTable.mem_entries_iff.1 h
  -- the coordinate was carried over or recorded, with some name either way
  have hName : ∃ n, n ∈ (old.reconcile p siblings).locked.get c := by
    rw [locked_reconcile, LockTable.mem_keys_addEntries, LockTable.mem_keys_addEntries] at hc
    simp only [locked_reconcile, LockTable.mem_get_addEntries]
    rcases hc with (hc | ⟨e, he, rfl⟩) | ⟨e, he, rfl⟩
    · exact absurd hc List.not_mem_nil
    · obtain ⟨n, hn⟩ := (mem_carriedEntries.1 he).2.2
      exact ⟨n, Or.inl (Or.inr ⟨e, he, rfl, hn⟩)⟩
    · obtain ⟨conf, -, -, hSet⟩ := mem_recordedEntries.1 he
      exact ⟨conf.name, Or.inr ⟨e, he, rfl, by rw [hSet, NameSet.mem_singleton]⟩⟩
  obtain ⟨n, hn⟩ := hName
  exact fun hEmpty => NameSet.not_mem_empty n (hEmpty ▸ hn)

/--
**What a reconciled lock records.** Each name locks a coordinate, and has
nothing to lock, as before if it is not recomputed and as the project says if it
is; no coordinate is left without a name, and the coordinates are the surviving
ones in their order, then those newly met in the order of their first meeting.
-/
theorem reconcile_exact (old : Lock) (p : Project) (siblings : List Sibling) :
    (∀ c n, n ∈ (old.reconcile p siblings).locked.get c ↔
      (¬ old.Recomputes p n ∧ n ∈ old.locked.get c) ∨
        (old.Recomputes p n ∧ p.Locks siblings n c)) ∧
    (∀ n, n ∈ (old.reconcile p siblings).empty ↔
      (¬ old.Recomputes p n ∧ n ∈ old.empty) ∨
        (old.Recomputes p n ∧ p.LocksNothing siblings n)) ∧
    (∀ e ∈ (old.reconcile p siblings).locked.entries, e.2 ≠ ∅) ∧
    (old.reconcile p siblings).locked.keys =
      old.surviving p ++
        ((old.met p siblings).filter fun c => !(old.surviving p).contains c).eraseDups :=
  ⟨fun _ _ => mem_get_reconcile, fun _ => mem_empty_reconcile,
    fun _ => ne_empty_of_mem_entries_reconcile, keys_reconcile old p siblings⟩

end Lock

end Lockstep
