import Lockstep.Discovery
import Lockstep.Proofs.Files.PathTexts

/-!
# Lockstep — module paths

The module path of a lock file is the names that lead from the root to its directory,
in a row (`moduleOf_eq_ok_iff`). So joining undoes it: the root joined with the module
path is the directory (`join_ofText_of_moduleOf`), and with the file's name the file
again. It also undoes joining (`moduleOf_join`). Two lock files of one name that have
the same module path are one file (`eq_of_moduleOf_eq`).
-/

namespace Lockstep

variable {root lock lock' below : Path} {names : List Text} {m n : Text}

/-- The module path of a lock file is the names that lead from the root to its
directory, in a row. The root may have two dots in it; its names are compared
as they are. -/
theorem moduleOf_eq_ok_iff :
    moduleOf root lock = .ok m ↔
      ∃ names, lock.anchor = root.anchor ∧ lock.parent.parts = root.parts ++ names ∧
        Text.joinWith [char '/'] names = m := by
  rw [moduleOf]
  cases hNames : lock.parent.relativeTo? root with
  | none =>
    refine iff_of_false (by simp) ?_
    rintro ⟨names, hAnchor, hParts, -⟩
    have hSome : lock.parent.relativeTo? root = some names :=
      Path.relativeTo?_eq_some_iff.2 ⟨hAnchor, hParts⟩
    rw [hNames] at hSome
    exact absurd hSome (by simp)
  | some names =>
    obtain ⟨hAnchor, hParts⟩ := Path.relativeTo?_eq_some_iff.1 hNames
    constructor
    · intro hm
      exact ⟨names, hAnchor, hParts, Except.ok.inj hm⟩
    · -- the names that go on from the root are determined by the path
      rintro ⟨names', -, hParts', rfl⟩
      rw [List.append_cancel_left (hParts.symm.trans hParts')]

/-- A lock file whose directory is not below the root has no module path. -/
theorem moduleOf_eq_error
    (h : ¬ (root.anchor = lock.parent.anchor ∧ root.parts <+: lock.parent.parts)) :
    moduleOf root lock = .error ⟨lock.parent, root⟩ := by
  have hNone : lock.parent.relativeTo? root = none := by
    rw [Path.relativeTo?, if_neg fun hBelow => h ⟨hBelow.1.symm, hBelow.2⟩]
  rw [moduleOf, hNone]

theorem exists_moduleOf_eq_ok (hAnchor : root.anchor = lock.parent.anchor)
    (hParts : root.parts <+: lock.parent.parts) : ∃ m, moduleOf root lock = .ok m := by
  obtain ⟨names, hNames⟩ := hParts
  exact ⟨_, moduleOf_eq_ok_iff.2 ⟨names, hAnchor.symm, hNames.symm, rfl⟩⟩

/-- The module path of a file below the root leaves out the name of the file. -/
theorem moduleOf_eq (hAnchor : lock.anchor = root.anchor) (hNames : names ≠ [])
    (hParts : lock.parts = root.parts ++ names) :
    moduleOf root lock = .ok (Text.joinWith [char '/'] names.dropLast) := by
  refine moduleOf_eq_ok_iff.2 ⟨names.dropLast, hAnchor, ?_, rfl⟩
  rw [Path.parts_parent, hParts, List.dropLast_append_of_ne_nil hNames]

-- ---------------------------------------------------------------------------
-- Joining
-- ---------------------------------------------------------------------------

/-- The module path leads from the root to the directory of the lock file. -/
theorem join_ofText_of_moduleOf (h : moduleOf root lock = .ok m) :
    root.join (Path.ofText m) = lock.parent := by
  obtain ⟨names, hAnchor, hParts, rfl⟩ := moduleOf_eq_ok_iff.1 h
  have hNames := Path.isPathName_of_parts_eq hParts
  rw [Path.join_ofText_joinWith root hNames]
  refine Path.eq_of_parts_eq hAnchor.symm ?_
  rw [Path.parts_append hNames, hParts]

/-- With the file's name it leads to the lock file. -/
theorem join_join_of_moduleOf (h : moduleOf root lock = .ok m) :
    (root.join (Path.ofText m)).join (Path.ofText lock.name) = lock := by
  rw [join_ofText_of_moduleOf h, Path.parent_join_name]

/-- Lock files of one name that have the same module path are the same. -/
theorem eq_of_moduleOf_eq (h : moduleOf root lock = .ok m) (h' : moduleOf root lock' = .ok m)
    (hName : lock.name = lock'.name) : lock = lock' := by
  rw [← join_join_of_moduleOf h, ← join_join_of_moduleOf h', hName]

/-- The empty module path belongs to the root's own lock file. -/
theorem moduleOf_eq_nil_iff (h : moduleOf root lock = .ok m) : m = [] ↔ lock.parent = root := by
  constructor
  · rintro rfl
    rw [← join_ofText_of_moduleOf h]
    exact Path.append_nil root
  · rintro rfl
    obtain ⟨names, -, hParts, rfl⟩ := moduleOf_eq_ok_iff.1 h
    rw [List.self_eq_append_right.1 hParts]
    rfl

/-- The module path of a file in a directory is the way to this directory from the root. -/
theorem moduleOf_join (h : below.anchor = .relative) (hn : isPathName n = true) :
    moduleOf root ((root.join below).join (Path.ofText n)) =
      .ok (if below = Path.here then [] else below.text) := by
  have hBelow : root.join below = root.append below.parts := Path.join_of_relative h
  have hParts : ((root.append below.parts).append [n]).parts = root.parts ++ (below.parts ++ [n]) := by
    rw [Path.parts_append (by simpa using hn), Path.parts_append fun _ => Path.isPathName_of_mem_parts,
      List.append_assoc]
  have hModule : moduleOf root ((root.append below.parts).append [n]) =
      .ok (Text.joinWith [char '/'] (below.parts ++ [n]).dropLast) := moduleOf_eq rfl (by simp) hParts
  rw [hBelow, Path.join_ofText _ hn, hModule, List.dropLast_concat, Path.joinWith_parts h]

-- ---------------------------------------------------------------------------
-- What a module path says
-- ---------------------------------------------------------------------------

/-- The module path of a lock file below a root. -/
structure IsModuleOf (root lock : Path) (m : Text) : Prop where
  /-- From the root it leads to the lock file. -/
  joined : (root.join (Path.ofText m)).join (Path.ofText lock.name) = lock
  /-- Only the root's own lock file has the empty one. -/
  empty_iff : m = [] ↔ lock.parent = root
  /-- No other lock file of the name has it. -/
  alone : ∀ lock', lock' ≠ lock → lock'.name = lock.name → moduleOf root lock' ≠ .ok m

theorem isModuleOf_of_moduleOf (h : moduleOf root lock = .ok m) : IsModuleOf root lock m where
  joined := join_join_of_moduleOf h
  empty_iff := moduleOf_eq_nil_iff h
  alone _ hne hName h' := hne (eq_of_moduleOf_eq h' h hName)

/--
**Module paths undo joining.** A lock file has a module path iff the root leads to its
directory: the anchors are the same and the root's names come first. The root, joined with the
module path and with the file's name, is the lock file; so lock files of one name have different
module paths, and the empty one belongs to the root's own. The other way round, a file that is
joined to the root by a relative path has that path. All this is about paths as they are read:
slashes in a row are one, single dots are left out, two dots stay, and two slashes at the start
are a root of their own.
-/
theorem moduleOf_undoes_join (root lock : Path) :
    (root.anchor = lock.parent.anchor ∧ root.parts <+: lock.parent.parts →
      ∃ m, moduleOf root lock = .ok m ∧ IsModuleOf root lock m) ∧
    (¬ (root.anchor = lock.parent.anchor ∧ root.parts <+: lock.parent.parts) →
      moduleOf root lock = .error ⟨lock.parent, root⟩) ∧
    (∀ below n, below.anchor = .relative → isPathName n = true →
      moduleOf root ((root.join below).join (Path.ofText n)) =
        .ok (if below = Path.here then [] else below.text)) ∧
    Path.Reads Path.ofText ∧ ∀ p : Path, Path.ofText p.text = p := by
  refine ⟨fun ⟨hAnchor, hParts⟩ => ?_, moduleOf_eq_error, fun _ _ => moduleOf_join,
    Path.reads_ofText, Path.ofText_text⟩
  obtain ⟨m, hm⟩ := exists_moduleOf_eq_ok hAnchor hParts
  exact ⟨m, hm, isModuleOf_of_moduleOf hm⟩

private def shareRoot : Path := Path.ofText "//host/../share/.".text

private def shareLock : Path := Path.ofText "//host/.././share///lib/a:b/./gradle.lockfile".text

private def otherLock : Path := Path.ofText "/host/../share/gradle.lockfile".text

theorem moduleOf_undoes_join_share :
    (shareRoot.anchor = shareLock.parent.anchor ∧ shareRoot.parts <+: shareLock.parent.parts) ∧
    IsModuleOf shareRoot shareLock "lib/a:b".text ∧
    moduleOf shareRoot otherLock = .error ⟨otherLock.parent, shareRoot⟩ ∧
    moduleOf shareRoot ((shareRoot.join (Path.ofText "lib/../b".text)).join (Path.ofText lockFileName)) =
      .ok "lib/../b".text :=
  have hBelow : shareRoot.anchor = shareLock.parent.anchor ∧
      shareRoot.parts <+: shareLock.parent.parts := ⟨rfl, ["lib".text, "a:b".text], rfl⟩
  have ⟨hFound, _, hJoin, _⟩ := moduleOf_undoes_join shareRoot shareLock
  have ⟨_, hModule, his⟩ := hFound hBelow
  have hValue : moduleOf shareRoot shareLock = .ok "lib/a:b".text := by rfl
  ⟨hBelow, Except.ok.inj (hModule.symm.trans hValue) ▸ his,
    (moduleOf_undoes_join shareRoot otherLock).2.1 (by decide),
    hJoin (Path.ofText "lib/../b".text) lockFileName rfl (by decide)⟩

end Lockstep
