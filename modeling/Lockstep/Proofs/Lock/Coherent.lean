import Lockstep.Proofs.Lock.InStep
import Lockstep.Proofs.Snapshot.Accepted
import Mathlib.Data.List.Nodup

/-!
# Lockstep — locks without contradiction

A lock is **coherent** if none of its names both locks a coordinate and has nothing
to lock. Reconciling keeps what is carried over coherent, and what one configuration
records is coherent by itself; but the configurations of a project are recorded one
by one, and a snapshot may list several of one name.

* `mem_empty_and_locks_iff`    — which names contradict themselves in a reconciled lock.
* `IsCoherent.reconcile`       — none, if no two resolvable configurations share a name.
* `isCoherent_reconcile_iff`   — none, iff those that share a known name agree on
  whether they depend on anything but siblings.
-/

namespace Lockstep

namespace Lock

/-- No name that has nothing to lock locks a coordinate. -/
def IsCoherent (l : Lock) : Prop := ∀ n ∈ l.empty, ∀ c, n ∉ l.locked.get c

/-- A lock is coherent if no name with nothing to lock is the name of an entry,
which can be decided without a search among all coordinates. -/
theorem isCoherent_iff {l : Lock} : l.IsCoherent ↔ ∀ n ∈ l.empty, n ∉ l.locked.names := by
  simp only [IsCoherent, LockTable.mem_names, not_exists]

instance (l : Lock) : Decidable l.IsCoherent :=
  decidable_of_iff (∀ n ∈ l.empty.toList, n ∉ l.locked.names) isCoherent_iff.symm

variable {old : Lock} {p : Project} {siblings : List Sibling}

/-- A name contradicts itself after reconciling iff it is recomputed and the project
says both. A name that is carried over does not, as the lock before did not
contradict itself. -/
theorem mem_empty_and_locks_iff (h : old.IsCoherent) {n : Text} {c : Coordinate} :
    (n ∈ (old.reconcile p siblings).empty ∧ n ∈ (old.reconcile p siblings).locked.get c) ↔
      old.Recomputes p n ∧ p.LocksNothing siblings n ∧ p.Locks siblings n c := by
  rw [mem_empty_reconcile, mem_get_reconcile]
  by_cases hRec : old.Recomputes p n
  · simp [hRec]
  · have hKept : ¬ (n ∈ old.empty ∧ n ∈ old.locked.get c) := fun hBoth => h n hBoth.1 c hBoth.2
    simpa [hRec] using hKept

/-- Where no two resolvable configurations share a name, reconciling brings in no
contradiction. One configuration has nothing to lock if all it depends on are
siblings, and else locks what is none. -/
theorem IsCoherent.reconcile (h : old.IsCoherent)
    (hDistinct : ((p.configurations.filter (·.resolvable)).map (·.name)).Nodup) :
    (old.reconcile p siblings).IsCoherent := by
  intro n hn c hc
  obtain ⟨-, ⟨conf, hConf, hRes, hName, hNothing⟩, conf', hConf', hRes', hName', hd, hexternal⟩ :=
    (mem_empty_and_locks_iff h).1 ⟨hn, hc⟩
  have hSame : conf = conf' := List.inj_on_of_nodup_map hDistinct
    (List.mem_filter.2 ⟨hConf, hRes⟩) (List.mem_filter.2 ⟨hConf', hRes'⟩) (hName.trans hName'.symm)
  exact hexternal (hNothing c (hSame ▸ hd))

/--
**When a reconciled lock is coherent.** A coherent lock stays so iff any two
resolvable configurations of one name that it knows depend both on nothing but
siblings, or both on something else.
-/
theorem isCoherent_reconcile_iff (h : old.IsCoherent) :
    (old.reconcile p siblings).IsCoherent ↔
      ∀ conf ∈ p.configurations, ∀ conf' ∈ p.configurations,
        conf.resolvable = true → conf'.resolvable = true → conf.name = conf'.name →
        conf.name ∈ old.tracked →
        ((∀ d ∈ conf.resolved, p.SiblingEdge siblings d) ↔
          ∀ d ∈ conf'.resolved, p.SiblingEdge siblings d) := by
  constructor
  · intro hCoherent
    -- both directions are the same, with the two configurations in each other's place
    have hOne : ∀ conf ∈ p.configurations, ∀ conf' ∈ p.configurations,
        conf.resolvable = true → conf'.resolvable = true → conf.name = conf'.name →
        conf.name ∈ old.tracked → (∀ d ∈ conf.resolved, p.SiblingEdge siblings d) →
        ∀ d ∈ conf'.resolved, p.SiblingEdge siblings d := by
      intro conf hConf conf' hConf' hRes hRes' hName hTracked hNothing d hd
      by_contra hexternal
      have hBoth := (mem_empty_and_locks_iff h).2
        ⟨(recomputes_name_iff hConf hRes).2 hTracked, ⟨conf, hConf, hRes, rfl, hNothing⟩,
          conf', hConf', hRes', hName.symm, hd, hexternal⟩
      exact hCoherent _ hBoth.1 d hBoth.2
    intro conf hConf conf' hConf' hRes hRes' hName hTracked
    exact ⟨hOne conf hConf conf' hConf' hRes hRes' hName hTracked,
      hOne conf' hConf' conf hConf hRes' hRes hName.symm (hName ▸ hTracked)⟩
  · intro hAgree n hn c hc
    obtain ⟨hRec, ⟨conf, hConf, hRes, rfl, hNothing⟩, conf', hConf', hRes', hName', hd, hexternal⟩ :=
      (mem_empty_and_locks_iff h).1 ⟨hn, hc⟩
    have hTracked := (recomputes_iff.1 hRec).1
    exact hexternal ((hAgree conf hConf conf' hConf' hRes hRes' hName'.symm hTracked).1 hNothing c hd)

private def pinnedRelease : Coordinate := ⟨"org".text, "a".text, "1".text⟩

private def pinnedMain : Lock where
  locked := LockTable.ofList [(pinnedRelease, NameSet.ofList ["main".text])]
  empty := NameSet.ofList ["test".text]

private def split : Project where
  name := "app".text
  configurations := [⟨"main".text, true, [pinnedRelease]⟩, ⟨"test".text, true, []⟩,
    ⟨"main".text, true, [pinnedRelease]⟩]

theorem isCoherent_reconcile_split :
    pinnedMain.IsCoherent ∧
      ((pinnedMain.reconcile split []).IsCoherent ↔
        ∀ conf ∈ split.configurations, ∀ conf' ∈ split.configurations,
          conf.resolvable = true → conf'.resolvable = true → conf.name = conf'.name →
          conf.name ∈ pinnedMain.tracked →
          ((∀ d ∈ conf.resolved, split.SiblingEdge [] d) ↔
            ∀ d ∈ conf'.resolved, split.SiblingEdge [] d)) ∧
      (pinnedMain.reconcile split []).IsCoherent :=
  have hCoherent : pinnedMain.IsCoherent := by decide
  ⟨hCoherent, isCoherent_reconcile_iff hCoherent, by decide⟩

private def listedTwice : Json.Value :=
  .object [("modules".text, .array [.object [
    ("name".text, .string "app".text),
    ("configurations".text, .array [
      .object [("name".text, .string "main".text),
        ("resolved".text, .array [.object [
          ("group".text, .string "org".text),
          ("artifact".text, .string "a".text),
          ("version".text, .string "1".text)]])],
      .object [("name".text, .string " main ".text)]])]])]

private def twice : Project where
  name := "app".text
  configurations := [⟨"main".text, true, [pinnedRelease]⟩, ⟨"main".text, true, []⟩]

/-- A configuration that an accepted document lists twice, the second time without
dependencies. -/
theorem not_isCoherent_of_name_listed_twice :
    Build.ofDocument listedTwice = .ok ⟨[([], twice)], by decide⟩ ∧
      pinnedMain.IsCoherent ∧
      "main".text ∈ (pinnedMain.reconcile twice []).empty ∧
      "main".text ∈ (pinnedMain.reconcile twice []).locked.get pinnedRelease ∧
      ¬ (pinnedMain.reconcile twice []).IsCoherent :=
  ⟨by rfl, by decide, by decide, by decide, by decide⟩

end Lock

end Lockstep
