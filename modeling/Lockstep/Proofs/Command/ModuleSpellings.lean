import Lockstep.Proofs.Command.ModuleChoice
import Lockstep.Proofs.Snapshot.Accepted
import Lockstep.Proofs.Snapshot.Spellings

/-!
# Lockstep — one module in all its spellings

A module may be written in a snapshot or an argument in four ways, and a lock file of
it lies in its directory. All of them lead to one key (`spellings_agree`): the
snapshot keeps the project under it, a rendering looks it up, and an update finds it
for the lock file, whatever the root is.
-/

namespace Lockstep

open ModulePath (IsModule directory spellings)
open Snapshot (DescribesModule SpellsModule)

variable {names : List Text}

/-- The module of a document is kept under the path of its directory. -/
theorem Build.project?_of_spellsModule (h : IsModule names) {v m : Json.Value} {b : Build}
    (hb : ofDocument v = .ok b) (hm : m ∈ v.itemsAt "modules") (hNames : SpellsModule m names) :
    ∃ p, DescribesModule m (directory names, p) ∧ b.project? (directory names) = .ok p := by
  obtain ⟨⟨key, p⟩, hMem, hDescribed⟩ := Snapshot.exists_right_of_forall₂ (forall₂_projects hb) hm
  obtain rfl : key = directory names := hDescribed.key_eq h hNames
  exact ⟨p, hDescribed, project?_eq_ok_iff.2 hMem⟩

/-- The lock file of a module, by the names that lead to its directory. -/
def lockFileBelow (root : Path) (names : List Text) : Path :=
  root.join (Path.ofText (Text.joinWith [char '/'] (names ++ [lockFileName])))

/-- The module path of the lock file in a directory is the path of the directory,
below any root. The root may itself have colons or blanks in its names. -/
theorem moduleOf_lockFileBelow (h : IsModule names) (root : Path) :
    moduleOf root (lockFileBelow root names) = .ok (directory names) := by
  have hProper : ∀ n ∈ names ++ [lockFileName], isPathName n = true := by
    intro n hn
    rcases List.mem_append.1 hn with hn | hn
    · exact (h.proper n hn).1
    · rw [List.mem_singleton.1 hn]
      decide
  -- the text that is joined to the root is read as just these names
  have hBelow : lockFileBelow root names = root.append (names ++ [lockFileName]) :=
    Path.join_ofText_joinWith root hProper
  have hAnchor : (lockFileBelow root names).anchor = root.anchor := by rw [hBelow]; rfl
  have hParts : (lockFileBelow root names).parts = root.parts ++ (names ++ [lockFileName]) := by
    rw [hBelow]
    exact Path.parts_append hProper
  rw [moduleOf_eq hAnchor (by simp) hParts, List.dropLast_concat, directory]

namespace Command

/--
**The spellings of a module agree.** Let names of directories, perhaps none, have no colons, and
let no blank begin or end their path. A module that a document writes in one of the four ways is
in its build under the path of the directory. A rendering that is given one of the four ways looks
up that path. And it is the path of the lock file in that directory, below every root, so that an
update which finds the file takes it to belong to the module.
-/
theorem spellings_agree (h : IsModule names) :
    (∀ v b, Build.ofDocument v = .ok b → ∀ m ∈ v.itemsAt "modules", SpellsModule m names →
      ∃ p, DescribesModule m (directory names, p) ∧ b.project? (directory names) = .ok p) ∧
    (∀ depth d call b lock, Build.load depth d (Path.ofText call.snapshot) = .ok b →
      d.absolute call.lockFile = .ok lock → ∀ t ∈ spellings names, call.module = some t →
      RendersAs depth d call b lock (directory names)) ∧
    (∀ root, moduleOf root (lockFileBelow root names) = .ok (directory names)) ∧
    (∀ depth env d call b root paths, Build.load depth d (Path.ofText call.snapshot) = .ok b →
      d.absolute call.root = .ok root → discover d root = .ok paths →
      lockFileBelow root names ∈ paths →
      UpdatesAs depth env d call b root paths (lockFileBelow root names) (directory names)) := by
  refine ⟨fun v b hb m hm hNames => Build.project?_of_spellsModule h hb hm hNames,
    fun depth d call b lock hBuild hPlace t ht hModule => ?_, moduleOf_lockFileBelow h,
    fun depth env d call b root paths hBuild hPlace hPaths hLock =>
      updatesAs_moduleOf env hBuild hPlace hPaths hLock (moduleOf_lockFileBelow h root)⟩
  -- only for an argument the spelling has to be undone; the others hold the key itself
  refine rendersAs_of_renderModule hBuild hPlace ?_
  simp only [renderModule, hModule, ModulePath.ofArgument_of_mem_spellings h ht]

private def serviceNames : List Text := ["services", "billing"].map String.text

private theorem isModule_serviceNames : IsModule serviceNames where
  proper := by decide
  first := by
    intro n hn c hc
    obtain rfl : "services".text = n := Option.some.inj hn
    obtain rfl : char 's' = c := Option.some.inj hc
    decide
  last := by
    intro n hn c hc
    obtain rfl : "billing".text = n := Option.some.inj hn
    obtain rfl : char 'g' = c := Option.some.inj hc
    decide

private def serviceModule : Json.Value :=
  .object [("path".text, .string ":services:billing".text),
    ("name".text, .string "billing".text)]

private def serviceDocument : Json.Value :=
  .object [("modules".text, .array [serviceModule])]

private def serviceBuild : Build := ⟨[("services/billing".text, ⟨"billing".text, none, []⟩)], by decide⟩

private def serviceDisk : Disk :=
  { root := .file "s.json".text (Utf8.bytesOf (Json.write serviceDocument))
      (.folder "services".text (.folder "billing".text
        (.file lockFileName (Utf8.bytesOf "empty=\n".text) .nil) .nil) .nil) }

private def serviceLock : Path := lockFileBelow Path.root serviceNames

private def serviceRender : RenderCall :=
  ⟨"s.json".text, "services/billing/gradle.lockfile".text, some "/services/billing/".text⟩

private def serviceUpdate : UpdateCall := ⟨"s.json".text, ".".text, false, none⟩

theorem spellings_agree_services :
    IsModule serviceNames ∧
    (∃ p, DescribesModule serviceModule (directory serviceNames, p) ∧
      serviceBuild.project? (directory serviceNames) = .ok p) ∧
    RendersAs 10 serviceDisk serviceRender serviceBuild serviceLock (directory serviceNames) ∧
    moduleOf Path.root serviceLock = .ok (directory serviceNames) ∧
    UpdatesAs 10 {} serviceDisk serviceUpdate serviceBuild Path.root [serviceLock] serviceLock
      (directory serviceNames) :=
  have hBuild : Build.load 10 serviceDisk (Path.ofText "s.json".text) = .ok serviceBuild := by
    decide +kernel
  have hPlace : serviceDisk.absolute serviceRender.lockFile = .ok serviceLock := by rfl
  have hPlace' : serviceDisk.absolute serviceUpdate.root = .ok Path.root := by rfl
  have hPaths : discover serviceDisk Path.root = .ok [serviceLock] := by rfl
  have hDocument : Build.ofDocument serviceDocument = .ok serviceBuild := by rfl
  have hNames : SpellsModule serviceModule serviceNames :=
    ⟨":services:billing".text, by decide, Or.inr ⟨_, rfl, rfl⟩⟩
  have hGiven : "/services/billing/".text ∈ spellings serviceNames := by decide
  have ⟨hStored, hRendered, hModule, hUpdated⟩ := spellings_agree isModule_serviceNames
  ⟨isModule_serviceNames,
    hStored serviceDocument serviceBuild hDocument serviceModule List.mem_cons_self hNames,
    hRendered 10 serviceDisk serviceRender serviceBuild serviceLock hBuild hPlace _ hGiven rfl,
    hModule Path.root,
    hUpdated 10 {} serviceDisk serviceUpdate serviceBuild Path.root [serviceLock] hBuild hPlace' hPaths
      List.mem_cons_self⟩

end Command

end Lockstep
