import Lockstep.Proofs.Command.Jobs

/-!
# Lockstep — the modules that the commands choose

The update command takes a lock file to belong to the module of its directory's path
below the root. The render command takes the same path, below its working directory,
and reads it like an argument, with slashes for colons. So they choose alike iff the
path has no colon or there is no module either way
(`render_chooses_as_update_iff`).
-/

namespace Lockstep

-- ---------------------------------------------------------------------------
-- Paths of directories as arguments
-- ---------------------------------------------------------------------------

namespace ModulePath

/-- A path of a directory that is read as an argument stays the same iff it has no
colon. Its slashes cannot be lost at the ends, as no name of it is empty. -/
theorem ofArgument_joinWith_eq_self_iff {names : List Text} (h : ∀ n ∈ names, isPathName n = true) :
    ofArgument (Text.joinWith [char '/'] names) = Text.joinWith [char '/'] names ↔
      char ':' ∉ Text.joinWith [char '/'] names := by
  have hne : ∀ n ∈ names, n ≠ [] := by
    rintro n hn rfl
    exact absurd (h [] hn) (by decide)
  constructor
  · intro hSame hColon
    rw [ofArgument] at hSame
    rw [← hSame] at hColon
    exact Text.not_mem_replaceChar (by decide) _ hColon
  · intro hColon
    -- neither end of the path is a separator, for no name has one
    have hTrim : (Text.joinWith [char '/'] names).trimBy (fun c => c == char ':' || c == char '/') =
        Text.joinWith [char '/'] names := by
      refine Text.trimBy_joinWith hne fun n hn c hc => ?_
      have hSlash := slash_not_mem_of_isPathName (h n hn)
      have hMem : c ∈ Text.joinWith [char '/'] names := Text.mem_joinWith_of_mem hn hc
      rw [Bool.or_eq_false_iff, beq_eq_false_iff_ne, beq_eq_false_iff_ne]
      exact ⟨fun heq => hColon (heq ▸ hMem), fun heq => hSlash (heq ▸ hc)⟩
    rw [ofArgument, hTrim, Text.replaceChar_eq_self hColon]

end ModulePath

-- ---------------------------------------------------------------------------
-- Choices
-- ---------------------------------------------------------------------------

/-- The module of a path: the path and the project. -/
def Build.module? (b : Build) (key : Text) : Option (Text × Project) :=
  (b.project? key).toOption.map fun p => (key, p)

/-- The module of a path is the path with its project. -/
theorem Build.module?_eq_some_iff {b : Build} {key : Text} {m : Text × Project} :
    b.module? key = some m ↔ b.project? key = .ok m.2 ∧ key = m.1 := by
  obtain ⟨key', p⟩ := m
  unfold module?
  cases b.project? key with
  | error e => simp [Except.toOption]
  | ok p' => simp [Except.toOption, and_comm]

/-- Two paths choose alike iff they are the same or choose nothing. Different paths
never choose one module, since a module is known by its path. -/
theorem Build.module?_eq_iff {b : Build} {key key' : Text} :
    b.module? key = b.module? key' ↔ key' = key ∨ b.module? key = none ∧ b.module? key' = none := by
  constructor
  · intro hSame
    cases hKey : b.module? key with
    | none => exact Or.inr ⟨rfl, by rw [← hSame, hKey]⟩
    | some m =>
      rw [hKey] at hSame
      exact Or.inl ((module?_eq_some_iff.1 hSame.symm).2.trans (module?_eq_some_iff.1 hKey).2.symm)
  · rintro (rfl | ⟨hKey, hKey'⟩)
    · rfl
    · rw [hKey, hKey']

namespace Command

variable {d : Disk} {b : Build} {root lock : Path} {paths : List Path}

/-- The update takes a lock file to belong to the module of a path, or skips it. -/
structure UpdatesAs (depth : Nat) (env : Environment) (d : Disk) (call : UpdateCall) (b : Build) (root : Path)
    (paths : List Path) (lock : Path) (key : Text) : Prop where
  run : update depth env d call = updateFound env d call b root paths
  job : ∀ p, ⟨lock, p⟩ ∈ jobsFound b root paths ↔ b.project? key = .ok p
  skipped : ∀ e, b.project? key = .error e →
    .log (.moduleSkipped lock.text e.message) ∈ (update depth env d call).emitted

/-- Writes a lock file as it would be in step with a project. -/
def renderProject (d : Disk) (b : Build) (lock : Path) (p : Project) : Outcome :=
  match LockFile.load d lock with
  | .error e =>
    if e.isReported then Outcome.failure d e.message else Outcome.escape d (.update (.unreadable e))
  | .ok text =>
    let events := (LockFile.updateEvents text p b.siblings).map Emission.log
    match LockFile.revise text p b.siblings with
    | .error e => Outcome.escape d (.update (.unwritable e)) events
    | .ok r => Outcome.deliver 0 d (events ++ [.out r.text])

/-- The rendering takes a lock file to belong to the module of a path, or says that
there is none. -/
structure RendersAs (depth : Nat) (d : Disk) (call : RenderCall) (b : Build) (lock : Path) (key : Text) : Prop where
  found : ∀ p, b.project? key = .ok p → render depth d call = renderProject d b lock p
  missing : ∀ e, b.project? key = .error e → render depth d call = Outcome.failure d e.message

/-- What is said about a lock file of no module is among what an update writes. -/
theorem log_mem_emitted_updateFound (env : Environment) (d : Disk) (call : UpdateCall)
    {event : Event} (hLock : lock ∈ paths) (hJob : jobOf b root lock = .error event) :
    .log event ∈ (updateFound env d call b root paths).emitted := by
  have hSkip : ∀ said : Except Event Job → Option Emission, said (.error event) = some (.log event) →
      .log event ∈ (paths.map (jobOf b root)).filterMap said := fun said hSaid =>
    List.mem_filterMap.2 ⟨_, List.mem_map_of_mem hLock, by rw [hJob, hSaid]⟩
  unfold updateFound
  dsimp only
  -- in each way to end, the events about lock files without a job come first
  split
  · exact mem_emitted_deliver (fault?_of_log fun e he => eq_log_of_mem_skips he) (hSkip _ rfl)
  · split
    · exact List.mem_append_left _ (List.mem_append_left _ (hSkip _ rfl))
    · refine mem_emitted_deliver (fault?_of_log fun e he => ?_)
        (List.mem_append_left _ (List.mem_append_left _ (hSkip _ rfl)))
      simp only [List.mem_append, List.mem_map] at he
      rcases he with (hSkips | ⟨event, -, rfl⟩) | ⟨event, -, rfl⟩
      · exact eq_log_of_mem_skips hSkips
      · exact ⟨event, rfl⟩
      · exact ⟨event, rfl⟩

/-- An update goes by the path of the lock file's directory below the root. If there
is no module of this path, the file is passed over and an event says so. -/
theorem updatesAs_moduleOf {depth : Nat} {key : Text} (env : Environment) {call : UpdateCall}
    (hBuild : Build.load depth d (Path.ofText call.snapshot) = .ok b)
    (hPlace : d.absolute call.root = .ok root) (hPaths : discover d root = .ok paths)
    (hLock : lock ∈ paths) (hKey : moduleOf root lock = .ok key) :
    UpdatesAs depth env d call b root paths lock key := by
  have hRun : update depth env d call = updateFound env d call b root paths := by
    simp only [update, loadBuild, hBuild, hPlace, hPaths]
  refine ⟨hRun, fun p => ?_, fun e he => ?_⟩
  · -- the file has one key, so that its job is about the project of this key, if there is one
    rw [mem_jobsFound]
    constructor
    · rintro ⟨-, key', hKey', hProject⟩
      rw [hKey, Except.ok.injEq] at hKey'
      rw [hKey', hProject]
    · exact fun hProject => ⟨hLock, key, hKey, hProject⟩
  · rw [hRun]
    refine log_mem_emitted_updateFound env d call hLock ?_
    simp only [jobOf, hKey, he]

/-- A rendering goes by the path that it makes of its arguments. -/
theorem rendersAs_of_renderModule {depth : Nat} {key : Text} {call : RenderCall}
    (hBuild : Build.load depth d (Path.ofText call.snapshot) = .ok b)
    (hPlace : d.absolute call.lockFile = .ok lock) (hKey : renderModule d call lock = .ok key) :
    RendersAs depth d call b lock key := by
  refine ⟨fun p hp => ?_, fun e he => ?_⟩
  · simp only [render, loadBuild, hBuild, hPlace, hKey, hp]
    rfl
  · simp only [render, loadBuild, hBuild, hPlace, hKey, he]

/-- Without a module among its arguments, a rendering goes by the path of the lock
file's directory below the working directory, read like an argument. -/
theorem rendersAs_ofArgument {depth : Nat} {key : Text} {call : RenderCall}
    (hBuild : Build.load depth d (Path.ofText call.snapshot) = .ok b)
    (hPlace : d.absolute call.lockFile = .ok lock) (hModule : call.module = none)
    (hKey : moduleOf d.workingPath lock = .ok key) :
    RendersAs depth d call b lock (ModulePath.ofArgument key) :=
  rendersAs_of_renderModule hBuild hPlace (by simp only [renderModule, hModule, hKey])

/-- The disk, to work on in another directory. -/
def inFolder (d : Disk) (root : Path) : Disk := { d with working := root.parts }

/--
**When the commands choose the same module.** A directory is the root of an update
that finds a lock file, and the working directory of a rendering of this file. Both
take the path of the file's directory; the rendering writes slashes for its colons.
So they choose the same module, or none, iff the path has no colon or neither path is
one of the build.
-/
theorem render_chooses_as_update_iff (depth depth' : Nat) (env : Environment) {updating : UpdateCall}
    {rendering : RenderCall} {inside : Listing}
    (hBuild : Build.load depth d (Path.ofText updating.snapshot) = .ok b)
    (hRoot : d.entry updating.root = .ok (.folder inside))
    (hPlace : d.absolute updating.root = .ok root)
    (hPaths : discover d root = .ok paths) (hLock : lock ∈ paths)
    (hBuild' : Build.load depth' (inFolder d root) (Path.ofText rendering.snapshot) = .ok b)
    (hPlace' : (inFolder d root).absolute rendering.lockFile = .ok lock)
    (hModule : rendering.module = none) :
    ∃ key, moduleOf root lock = .ok key ∧
      UpdatesAs depth env d updating b root paths lock key ∧
      RendersAs depth' (inFolder d root) rendering b lock (ModulePath.ofArgument key) ∧
      (b.module? key = b.module? (ModulePath.ofArgument key) ↔
        char ':' ∉ key ∨ b.module? key = none ∧ b.module? (ModulePath.ofArgument key) = none) := by
  obtain ⟨root', hRoot', hFolder⟩ := isFolder_of_entry hRoot
  rw [hPlace, Except.ok.injEq] at hRoot'
  subst hRoot'
  obtain ⟨-, hFound⟩ := discover_found hFolder hPaths
  -- the module path of what was found is made of names, of which only colons change in an argument
  obtain ⟨names, hNames, hKey⟩ := (hFound lock hLock).exists_moduleOf hFolder.anchor
  have hWorking : (inFolder d root).workingPath = root := hFolder.root_append_parts
  refine ⟨_, hKey, updatesAs_moduleOf env hBuild hPlace hPaths hLock hKey, ?_, ?_⟩
  · refine rendersAs_ofArgument hBuild' hPlace' hModule ?_
    rw [hWorking, hKey]
  · rw [Build.module?_eq_iff, ModulePath.ofArgument_joinWith_eq_self_iff hNames]

private def shelved : Project where
  name := "core".text
  configurations := [⟨"api".text, true, [⟨"g".text, "a".text, "2".text⟩]⟩]

private def plainBuild : Build := ⟨[("lib/a".text, shelved)], by decide⟩

private def colonBuild : Build := ⟨[("lib/a:b".text, shelved)], by decide⟩

private def shelfSnapshot (folder : String) : Json.Value :=
  .object [("modules".text, .array [.object [
    ("path".text, .string ("lib/" ++ folder).text),
    ("name".text, .string "core".text),
    ("configurations".text, .array [.object [
      ("name".text, .string "api".text),
      ("resolved".text, .array [.object [
        ("group".text, .string "g".text),
        ("artifact".text, .string "a".text),
        ("version".text, .string "2".text)]])]])]])]

private def shelf (folder : String) : Listing :=
  .file "s.json".text (Utf8.bytesOf (Json.write (shelfSnapshot folder)))
    (.folder "lib".text (.folder folder.text
      (.file lockFileName (Utf8.bytesOf "g:a:1=api\nempty=\n".text) .nil) .nil) .nil)

private def plainShelf : Disk := { root := shelf "a" }

private def colonShelf : Disk := { root := shelf "a:b" }

private def shelfUpdate : UpdateCall := ⟨"s.json".text, ".".text, false, none⟩

private def shelfRender (folder : String) : RenderCall :=
  ⟨"s.json".text, ("lib/" ++ folder ++ "/gradle.lockfile").text, none⟩

private def shelfLock (folder : String) : Path :=
  Path.root.append ["lib".text, folder.text, lockFileName]

theorem render_chooses_as_update_iff_plainShelf :
    Build.load 10 plainShelf (Path.ofText shelfUpdate.snapshot) = .ok plainBuild ∧
    plainShelf.entry shelfUpdate.root = .ok (.folder plainShelf.root) ∧
    plainShelf.absolute shelfUpdate.root = .ok Path.root ∧
    discover plainShelf Path.root = .ok [shelfLock "a"] ∧
    Build.load 10 (inFolder plainShelf Path.root) (Path.ofText (shelfRender "a").snapshot) =
      .ok plainBuild ∧
    (inFolder plainShelf Path.root).absolute (shelfRender "a").lockFile = .ok (shelfLock "a") ∧
    (shelfRender "a").module = none ∧
    ∃ key, moduleOf Path.root (shelfLock "a") = .ok key ∧
      UpdatesAs 10 {} plainShelf shelfUpdate plainBuild Path.root [shelfLock "a"] (shelfLock "a") key ∧
      RendersAs 10 (inFolder plainShelf Path.root) (shelfRender "a") plainBuild (shelfLock "a")
        (ModulePath.ofArgument key) ∧
      (plainBuild.module? key = plainBuild.module? (ModulePath.ofArgument key) ↔
        char ':' ∉ key ∨ plainBuild.module? key = none ∧
          plainBuild.module? (ModulePath.ofArgument key) = none) :=
  have hBuild : Build.load 10 plainShelf (Path.ofText shelfUpdate.snapshot) = .ok plainBuild := by
    decide +kernel
  have hRoot : plainShelf.entry shelfUpdate.root = .ok (.folder plainShelf.root) := by rfl
  have hPlace : plainShelf.absolute shelfUpdate.root = .ok Path.root := by rfl
  have hPaths : discover plainShelf Path.root = .ok [shelfLock "a"] := by rfl
  have hPlace' : (inFolder plainShelf Path.root).absolute (shelfRender "a").lockFile =
      .ok (shelfLock "a") := by rfl
  ⟨hBuild, hRoot, hPlace, hPaths, hBuild, hPlace', rfl,
    render_chooses_as_update_iff 10 10 {} hBuild hRoot hPlace hPaths List.mem_cons_self hBuild hPlace' rfl⟩

/-- The module of a directory with a colon is updated, and not found for a rendering. -/
theorem render_misses_updated_module :
    Build.load 10 colonShelf (Path.ofText shelfUpdate.snapshot) = .ok colonBuild ∧
    colonShelf.absolute shelfUpdate.root = .ok Path.root ∧
    discover colonShelf Path.root = .ok [shelfLock "a:b"] ∧
    inFolder colonShelf Path.root = colonShelf ∧
    colonShelf.absolute (shelfRender "a:b").lockFile = .ok (shelfLock "a:b") ∧
    (shelfRender "a:b").module = none ∧
    jobsFound colonBuild Path.root [shelfLock "a:b"] = [⟨shelfLock "a:b", shelved⟩] ∧
    (render 10 colonShelf (shelfRender "a:b")).emitted =
      [.err "Error: Module 'lib/a/b' not found in snapshot (known modules: lib/a:b)\n".text] :=
  ⟨by decide +kernel, by rfl, by rfl, by rfl, by rfl, rfl, by rfl, by decide +kernel⟩

end Command

end Lockstep
