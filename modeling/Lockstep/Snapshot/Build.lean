import Lockstep.Snapshot.Document

/-!
# Lockstep — builds

A build is its projects by module path, in the order of the document, no path
twice. All of its modules are siblings of each other.

* `Build.ofDocument` — the build of a document, or why it has none.
* `Build.project?`   — the project of a module path, or which paths there are.
-/

namespace Lockstep

/-- The projects of one build by module path. -/
structure Build where
  projects : List (Text × Project)
  nodup : (projects.map (·.1)).Nodup
  deriving DecidableEq, Repr

/-- Why a document is not a build. -/
inductive DocumentError where
  /-- Some places are not as they must be. -/
  | invalid (complaints : List Snapshot.Complaint)
  /-- Two modules have this path. -/
  | duplicate (path : Text)
  deriving DecidableEq, Repr

/-- A module path that a build does not have, and those that it has, in increasing order. -/
structure UnknownModule where
  path : Text
  known : List Text
  deriving DecidableEq, Repr

/-- What is reported about a module that a build does not have. -/
def UnknownModule.message (e : UnknownModule) : Text :=
  let known :=
    if e.known.isEmpty then "none".text
    else Text.joinWith ", ".text (e.known.map ModulePath.shown)
  "Module '".text ++ ModulePath.shown e.path ++ "' not found in snapshot (known modules: ".text ++
    known ++ ")".text

/-- What is reported about a document that is not a build. -/
def DocumentError.message : DocumentError → Text
  | .invalid _ => "invalid resolver snapshot".text
  | .duplicate path => "duplicate module path in snapshot: '".text ++ path ++ [char '\'']

namespace Build

/-- The build without modules. -/
def empty : Build := ⟨[], List.nodup_nil⟩

instance : Inhabited Build := ⟨empty⟩

/-- The modules of a build, as they see each other. -/
def siblings (b : Build) : List Sibling :=
  Sibling.sortDistinct (b.projects.map (·.2.sibling))

/-- The project of a module path. -/
def project? (b : Build) (path : Text) : Except UnknownModule Project :=
  match b.projects.lookup path with
  | some p => .ok p
  | none => .error ⟨path, Text.sort (b.projects.map (·.1))⟩

/-- The first path that occurs a second time. -/
def firstDuplicate? (seen : List Text) : List Text → Option Text
  | [] => none
  | path :: rest => if seen.contains path then some path else firstDuplicate? (path :: seen) rest

theorem nodup_of_firstDuplicate?_eq_none {seen paths : List Text}
    (h : firstDuplicate? seen paths = none) : paths.Nodup ∧ ∀ p ∈ paths, p ∉ seen := by
  induction paths generalizing seen with
  | nil => simp
  | cons p rest ih =>
    simp only [firstDuplicate?] at h
    split at h
    · simp at h
    · next hp =>
      have ⟨hNodup, hSeen⟩ := ih h
      refine ⟨List.nodup_cons.2 ⟨fun hMem => hSeen p hMem (by simp), hNodup⟩, ?_⟩
      intro q hq
      rcases List.mem_cons.1 hq with rfl | hq
      · simpa using hp
      · exact fun hMem => hSeen q hq (by simp [hMem])

/-- The build of modules with different paths. -/
def ofModules (ms : List (Text × Project)) : Except DocumentError Build :=
  match h : firstDuplicate? [] (ms.map (·.1)) with
  | some path => .error (.duplicate path)
  | none => .ok ⟨ms, (nodup_of_firstDuplicate?_eq_none h).1⟩

/-- The build of a document. -/
def ofDocument (d : Json.Value) : Except DocumentError Build :=
  match Snapshot.modules d with
  | .error es => .error (.invalid es)
  | .ok ms => ofModules ms

end Build

end Lockstep
