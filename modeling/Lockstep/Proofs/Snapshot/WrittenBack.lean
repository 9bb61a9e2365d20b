import Lockstep.Proofs.Snapshot.Acceptance
import Lockstep.Proofs.Snapshot.Spellings

/-!
# Lockstep — builds that are written back

A build can be written as a document again, with its keys as the paths of its modules.
Such a document is valid, and its projects are those of the build; but its keys are
brought into normal form once more, which may change them: trimming comes before the
slashes at the ends are dropped, and what stands between decides about the colons. A
key stays iff no blank begins or ends it and it would not be read as a project path
(`ofSnapshot_eq_self_iff`), and only a build of such keys is read back.
-/

namespace Lockstep

-- ---------------------------------------------------------------------------
-- Paths in normal form
-- ---------------------------------------------------------------------------

namespace ModulePath

variable {t : Text}

theorem colon_mem_of_hasColonSeparators (h : hasColonSeparators t = true) : char ':' ∈ t := by
  by_cases hColon : char ':' ∈ t
  · exact hColon
  · exact absurd h (by simp [hasColonSeparators_eq_false hColon])

/-- A normal form has no slashes at its ends. -/
theorem dropSlashes_ofSnapshot (t : Text) : dropSlashes (ofSnapshot t) = ofSnapshot t :=
  Text.trimBy_trimBy _

/-- A path is in normal form iff nothing has to be done for it: it has no blanks and
no slashes at its ends, and its colons, if any, are not read as separators. -/
theorem ofSnapshot_eq_self_iff :
    ofSnapshot t = t ↔ Text.trim t = t ∧ hasColonSeparators t = false ∧ dropSlashes t = t := by
  constructor
  · intro h
    -- colons that were read as separators would be gone
    have hNone : hasColonSeparators (Text.trim t) = false := by
      by_cases hColons : hasColonSeparators (Text.trim t) = true
      · have hMem : char ':' ∈ t := Text.mem_of_mem_trimBy (colon_mem_of_hasColonSeparators hColons)
        simp only [ofSnapshot, hColons, if_true] at h
        rw [← h] at hMem
        exact absurd (Text.mem_of_mem_trimBy hMem) (Text.not_mem_replaceChar (by decide) _)
      · simpa using hColons
    simp only [ofSnapshot, hNone, Bool.false_eq_true, if_false] at h
    -- dropping slashes and trimming only make a path shorter, so that neither has dropped anything
    have hLength : t.length ≤ (Text.trim t).length := by
      have := (Text.trimBy_sublist (· == char '/') (Text.trim t)).length_le
      rwa [← dropSlashes, h] at this
    have hTrim : Text.trim t = t := (Text.trimBy_sublist isBlank t).eq_of_length_le hLength
    rw [hTrim] at h hNone
    exact ⟨hTrim, hNone, h⟩
  · rintro ⟨hTrim, hNone, hSlashes⟩
    rw [ofSnapshot_of_trim hTrim, hNone]
    exact hSlashes

end ModulePath

-- ---------------------------------------------------------------------------
-- Documents of builds
-- ---------------------------------------------------------------------------

open Json (Value)

/-- The document of a dependency. -/
def Coordinate.document (c : Coordinate) : Value :=
  .object [("group".text, .string c.group), ("artifact".text, .string c.artifact),
    ("version".text, .string c.version)]

/-- The document of a configuration. -/
def Configuration.document (conf : Configuration) : Value :=
  .object [("name".text, .string conf.name), ("can_be_resolved".text, .bool conf.resolvable),
    ("resolved".text, .array (conf.resolved.map Coordinate.document))]

/-- The document of a module of a path. -/
def Project.document (path : Text) (p : Project) : Value :=
  .object [("path".text, .string path), ("name".text, .string p.name),
    ("group".text, p.group.elim .null .string),
    ("configurations".text, .array (p.configurations.map Configuration.document))]

/-- The document of a build, with its keys as paths. -/
def Build.document (b : Build) : Value :=
  .object [("modules".text, .array (b.projects.map fun e => e.2.document e.1))]

namespace Snapshot

theorem describesToken_string {separators : List Letter} {t : Text} (h : IsToken separators t) :
    DescribesToken separators (.string t) t := by
  have hDescribes : DescribesToken separators (.string t) (Text.trim t) :=
    .text t (h.trimmed.symm ▸ h.ne_nil) (h.trimmed.symm ▸ h.no_separator)
  rwa [h.trimmed] at hDescribes

/-- A list is described by what is written for its items. -/
theorem describesList_map {α : Type} {P : Value → α → Prop} {write : α → Value} {xs : List α}
    (h : ∀ x ∈ xs, P (write x) x) : DescribesList P (.array (xs.map write)) xs :=
  ⟨xs.map write, rfl, List.forall₂_map_left_iff.2 (List.forall₂_same.2 h)⟩

theorem describesDependency_document {c : Coordinate} (h : c.IsAccepted) :
    DescribesDependency c.document c where
  group := ⟨_, rfl, describesToken_string (h c.group (by simp [Coordinate.fields]))⟩
  artifact := ⟨_, rfl, describesToken_string (h c.artifact (by simp [Coordinate.fields]))⟩
  version := ⟨_, rfl, describesToken_string (h c.version (by simp [Coordinate.fields]))⟩

theorem describesConfiguration_document {conf : Configuration} (h : conf.IsAccepted) :
    DescribesConfiguration conf.document conf where
  name := ⟨_, rfl, describesToken_string h.name⟩
  resolvable := Or.inr ⟨_, rfl, .bool conf.resolvable⟩
  resolved :=
    Or.inr ⟨_, rfl, describesList_map fun d hd => describesDependency_document (h.resolved d hd)⟩

/-- Only the path of a module is not read as it is written. Its name and its group
are texts, which need not be tokens, and the rest was accepted. -/
theorem describesModule_document {p : Project} (h : p.IsAccepted) (path : Text) :
    DescribesModule (p.document path) (ModulePath.ofSnapshot path, p) where
  path := ⟨path, Or.inr ⟨_, rfl, rfl⟩, rfl⟩
  name := ⟨_, rfl, rfl⟩
  group := by
    refine Or.inr ⟨p.group.elim .null .string, rfl, ?_⟩
    cases hGroup : p.group with
    | none => exact .null
    | some g => exact .text g
  configurations :=
    Or.inr ⟨_, rfl, describesList_map fun conf hConf => describesConfiguration_document (h conf hConf)⟩

end Snapshot

namespace Build

open ModulePath (ofSnapshot hasColonSeparators IsModule directory spellings)

variable {v : Value} {b : Build}

/-- The projects of a build, with each key in normal form. -/
def normalized (b : Build) : List (Text × Project) := b.projects.map fun e => (ofSnapshot e.1, e.2)

/-- The document of a build describes its projects, with each key in normal form. -/
theorem describesBuild_document (h : ∀ e ∈ b.projects, e.2.IsAccepted) :
    Snapshot.DescribesBuild b.document b.normalized := by
  refine ⟨_, rfl, _, rfl, ?_⟩
  rw [normalized, List.forall₂_map_left_iff, List.forall₂_map_right_iff, List.forall₂_same]
  exact fun e he => Snapshot.describesModule_document (h e he) e.1

/-- A document of a build is valid; what is left to be seen is whether its paths
are different. -/
theorem ofDocument_document (h : ∀ e ∈ b.projects, e.2.IsAccepted) :
    ofDocument b.document = ofModules b.normalized :=
  ofDocument_of_describesBuild (describesBuild_document h)

/-- The keys stay as they are if each is in normal form. -/
theorem normalized_eq_iff : b.normalized = b.projects ↔ ∀ e ∈ b.projects, ofSnapshot e.1 = e.1 := by
  constructor
  · intro h e he
    have hMap : b.normalized = b.projects.map id := h.trans (List.map_id _).symm
    exact congrArg Prod.fst (List.map_inj_left.1 hMap e he)
  · intro h
    have hMap : b.normalized = b.projects.map id :=
      List.map_congr_left fun e he => Prod.ext (h e he) rfl
    exact hMap.trans (List.map_id _)

/-- No slash begins or ends a key. -/
theorem dropSlashes_of_mem_projects (h : ofDocument v = .ok b) {e : Text × Project}
    (he : e ∈ b.projects) : ModulePath.dropSlashes e.1 = e.1 := by
  obtain ⟨m, -, hm⟩ := Snapshot.exists_left_of_forall₂ (forall₂_projects h) he
  obtain ⟨written, -, hKey⟩ := hm.path
  rw [hKey]
  exact ModulePath.dropSlashes_ofSnapshot written

/-- The key of a module is the path of the directory that it spells. -/
theorem getElem?_keys_of_spellsModule {es : List (Text × Project)} {names : List Text} {i : Nat}
    {m : Value} (hes : Snapshot.DescribesBuild v es) (h : IsModule names)
    (hi : (v.itemsAt "modules")[i]? = some m) (hm : Snapshot.SpellsModule m names) :
    (es.map (·.1))[i]? = some (directory names) := by
  obtain ⟨hlt, rfl⟩ := List.getElem?_eq_some_iff.1 hi
  have hModules := Snapshot.FieldDescribes.forall₂_itemsAt hes
  have hlt' : i < es.length := hModules.length_eq ▸ hlt
  have hDescribed : Snapshot.DescribesModule (v.itemsAt "modules")[i] es[i] := hModules.get hlt hlt'
  rw [List.getElem?_map, List.getElem?_eq_getElem hlt', Option.map_some, hDescribed.key_eq h hm]

/--
**Builds that are written back.** Let a document be accepted. A key of its build is in normal form
iff no blank begins or ends it and it would not be read as a project path. The document of the build
is read as the build whose keys are brought into normal form once more, if these are different; so
it is read as the build itself iff all keys are in normal form. They are if all modules are written
in spellings of names, as directories or as project paths. And no two modules of a valid document
may be written in spellings of the same names: a path that occurs twice is reported.
-/
theorem ofDocument_writtenBack (v : Value) :
    (∀ b, ofDocument v = .ok b →
      (∀ e ∈ b.projects, ofSnapshot e.1 = e.1 ↔
        Text.trim e.1 = e.1 ∧ hasColonSeparators e.1 = false) ∧
      (∀ b', ofDocument b.document = .ok b' ↔ b'.projects = b.normalized) ∧
      (ofDocument b.document = .ok b ↔ ∀ e ∈ b.projects, ofSnapshot e.1 = e.1) ∧
      ((∀ m ∈ v.itemsAt "modules", ∃ names, IsModule names ∧ Snapshot.SpellsModule m names) →
        ofDocument b.document = .ok b)) ∧
    (∀ es, Snapshot.DescribesBuild v es → ∀ names, IsModule names → ∀ (i j : Nat) (m m' : Value),
      i < j → (v.itemsAt "modules")[i]? = some m → (v.itemsAt "modules")[j]? = some m' →
      Snapshot.SpellsModule m names → Snapshot.SpellsModule m' names →
      ∃ path, ofDocument v = .error (.duplicate path)) := by
  refine ⟨fun b hb => ?_, fun es hes names h i j m m' hij hi hj hm hm' => ?_⟩
  · have hAccepted := isAccepted_of_ofDocument hb
    have hRead : ∀ b', ofDocument b.document = .ok b' ↔ b'.projects = b.normalized := fun b' => by
      rw [ofDocument_document hAccepted, ofModules_eq_ok_iff]
    -- the build is known by its projects, and these by their keys
    have hSame : ofDocument b.document = .ok b ↔ ∀ e ∈ b.projects, ofSnapshot e.1 = e.1 := by
      rw [hRead, ← normalized_eq_iff, eq_comm]
    refine ⟨fun e he => ?_, hRead, hSame, fun hSpelled => hSame.2 fun e he => ?_⟩
    · have hSlashes := dropSlashes_of_mem_projects hb he
      rw [ModulePath.ofSnapshot_eq_self_iff, and_iff_left hSlashes]
    · obtain ⟨m, hm, hDescribed⟩ := Snapshot.exists_left_of_forall₂ (forall₂_projects hb) he
      obtain ⟨names, h, hNames⟩ := hSpelled m hm
      rw [hDescribed.key_eq h hNames, ModulePath.ofSnapshot_directory h]
  · have hKey := getElem?_keys_of_spellsModule hes h hi hm
    have hKey' := getElem?_keys_of_spellsModule hes h hj hm'
    obtain ⟨hlt, -⟩ := List.getElem?_eq_some_iff.1 hKey'
    -- the keys of both modules are the directory of the same names
    have hTwice : ¬ (es.map (·.1)).Nodup := fun hNodup =>
      List.nodup_iff_getElem?_ne_getElem?.1 hNodup i j hij hlt (hKey.trans hKey'.symm)
    obtain ⟨path, hDuplicate⟩ := exists_ofModules_eq_duplicate hTwice
    exact ⟨path, (ofDocument_of_describesBuild hes).trans hDuplicate⟩

private def coreBuild : Build := ⟨[("app/core".text, ⟨"core".text, none, []⟩)], by simp⟩

private def moduleAt (path : String) : Value :=
  .object [("path".text, .string path.text), ("name".text, .string "core".text)]

private def modulesAt (paths : List String) : Value :=
  .object [("modules".text, .array (paths.map moduleAt))]

private def keyedBuild (first second : String) (h : first.text ≠ second.text) : Build :=
  ⟨[(first.text, ⟨"core".text, none, []⟩), (second.text, ⟨"core".text, none, []⟩)],
    by simpa using h⟩

private def coreNames : List Text := ["app".text, "core".text]

private theorem isModule_coreNames : IsModule coreNames where
  proper := by decide
  first := by
    intro n hn c hc
    obtain rfl : "app".text = n := Option.some.inj hn
    obtain rfl : char 'a' = c := Option.some.inj hc
    decide
  last := by
    intro n hn c hc
    obtain rfl : "core".text = n := Option.some.inj hn
    obtain rfl : char 'e' = c := Option.some.inj hc
    decide

private theorem spellsModule_moduleAt (path : String) (h : path.text ∈ spellings coreNames) :
    Snapshot.SpellsModule (moduleAt path) coreNames :=
  ⟨path.text, h, Or.inr ⟨_, rfl, rfl⟩⟩

/-- A module as a directory and as a project, in one document and in two. -/
theorem ofDocument_writtenBack_twoSpellings :
    IsModule coreNames ∧
    Snapshot.SpellsModule (moduleAt "app/core") coreNames ∧
    Snapshot.SpellsModule (moduleAt ":app:core") coreNames ∧
    Snapshot.DescribesBuild (modulesAt ["app/core", ":app:core"])
      [("app/core".text, ⟨"core".text, none, []⟩), ("app/core".text, ⟨"core".text, none, []⟩)] ∧
    (∃ path, ofDocument (modulesAt ["app/core", ":app:core"]) = .error (.duplicate path)) ∧
    ofDocument (modulesAt [":app:core"]) = .ok coreBuild ∧
    ofDocument coreBuild.document = .ok coreBuild :=
  have hDirectory := spellsModule_moduleAt "app/core" (by decide)
  have hProject := spellsModule_moduleAt ":app:core" (by decide)
  have hDescribed : Snapshot.DescribesBuild (modulesAt ["app/core", ":app:core"])
      [("app/core".text, ⟨"core".text, none, []⟩), ("app/core".text, ⟨"core".text, none, []⟩)] :=
    Snapshot.modules_eq_ok_iff.1 (by rfl)
  have hBuild : ofDocument (modulesAt [":app:core"]) = .ok coreBuild := by rfl
  have hSpelled : ∀ m ∈ (modulesAt [":app:core"]).itemsAt "modules",
      ∃ names, IsModule names ∧ Snapshot.SpellsModule m names := by
    intro m hm
    obtain rfl := List.mem_singleton.1 hm
    exact ⟨coreNames, isModule_coreNames, hProject⟩
  have ⟨_, _, _, hBack⟩ := (ofDocument_writtenBack (modulesAt [":app:core"])).1 coreBuild hBuild
  have hTwice := (ofDocument_writtenBack (modulesAt ["app/core", ":app:core"])).2 _ hDescribed
    coreNames isModule_coreNames 0 1 _ _ (by decide) rfl rfl hDirectory hProject
  ⟨isModule_coreNames, hDirectory, hProject, hDescribed, hTwice, hBuild, hBack hSpelled⟩

private def slashedBuild : Build := keyedBuild " app" ":core" (by decide)

private def readBuild : Build := keyedBuild "app" "core" (by decide)

/-- Behind a slash, a blank and a colon are left in the keys until these are read again. -/
theorem document_of_slashed_paths :
    ofDocument (modulesAt ["/ app", "/:core"]) = .ok slashedBuild ∧
    ofSnapshot " app".text = "app".text ∧ ofSnapshot ":core".text = "core".text ∧
    ofDocument slashedBuild.document = .ok readBuild ∧ readBuild ≠ slashedBuild ∧
    ofDocument (modulesAt ["/:core", ":core"]) = .ok (keyedBuild ":core" "core" (by decide)) :=
  ⟨by rfl, by decide, by decide, by rfl, by decide, by rfl⟩

end Build

end Lockstep
