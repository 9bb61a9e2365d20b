import Lockstep.Proofs.Text.Pieces
import Lockstep.Proofs.Snapshot.Grammar

/-!
# Lockstep — what an accepted snapshot holds

An accepted document describes its build. Each value of it that goes into a lock
line is a token (`IsToken`): trimmed, not empty, and free of the characters that its
place gives a meaning.

* `project?_eq_ok_iff`       — which project a path of a build stands for.
* `isAccepted_of_ofDocument` — all projects of an accepted build are made of tokens.
-/

namespace Lockstep

namespace Snapshot

-- ---------------------------------------------------------------------------
-- Tokens
-- ---------------------------------------------------------------------------

/-- A value that can stand in a lock line, where these characters have a meaning. -/
structure IsToken (separators : List Letter) (t : Text) : Prop where
  ne_nil : t ≠ []
  trimmed : t.trim = t
  no_separator : ∀ c ∈ separators, c ∉ t

end Snapshot

/-- The fields of a coordinate are tokens. -/
def Coordinate.IsAccepted (c : Coordinate) : Prop :=
  ∀ field ∈ c.fields, Snapshot.IsToken Snapshot.coordinateSeparators field

/-- The name of a configuration is a token, and so are the fields of its dependencies. -/
structure Configuration.IsAccepted (conf : Configuration) : Prop where
  name : Snapshot.IsToken Snapshot.configurationSeparators conf.name
  resolved : ∀ d ∈ conf.resolved, d.IsAccepted

/-- All that a project could bring into a lock line is a token. -/
def Project.IsAccepted (p : Project) : Prop := ∀ conf ∈ p.configurations, conf.IsAccepted

namespace Snapshot

variable {v : Json.Value}

/-- What a text describes as a token is one. -/
theorem DescribesToken.isToken {separators : List Letter} {t : Text}
    (h : DescribesToken separators v t) : IsToken separators t := by
  obtain ⟨s, hne, hno⟩ := h
  exact ⟨hne, Text.trim_trim s, hno⟩

theorem FieldDescribes.isToken {separators : List Letter} {name : String} {t : Text}
    (h : FieldDescribes (DescribesToken separators) v name t) : IsToken separators t := by
  obtain ⟨w, -, hw⟩ := h
  exact hw.isToken

-- ---------------------------------------------------------------------------
-- Parts of a document
-- ---------------------------------------------------------------------------

/-- A dependency that a document describes has tokens for its fields. -/
theorem DescribesDependency.isAccepted {c : Coordinate} (h : DescribesDependency v c) :
    c.IsAccepted := by
  intro field hField
  simp only [Coordinate.fields, List.mem_cons, List.not_mem_nil, or_false] at hField
  rcases hField with rfl | rfl | rfl
  · exact h.group.isToken
  · exact h.artifact.isToken
  · exact h.version.isToken

/-- A configuration that a document describes has a token for its name, and so has
what it depends on. -/
theorem DescribesConfiguration.isAccepted {conf : Configuration}
    (h : DescribesConfiguration v conf) : conf.IsAccepted where
  name := h.name.isToken
  resolved := fun _ hd =>
    let ⟨_, _, hDep⟩ := exists_left_of_forall₂ h.resolved.forall₂_itemsAt hd
    hDep.isAccepted

/-- A module brings nothing but tokens into lock lines. Its own name and its group
need not be tokens: they are compared with dependencies, and never written. -/
theorem DescribesModule.isAccepted {e : Text × Project} (h : DescribesModule v e) :
    e.2.IsAccepted := by
  intro conf hConf
  obtain ⟨w, -, hw⟩ := exists_left_of_forall₂ h.configurations.forall₂_itemsAt hConf
  exact hw.isAccepted

theorem isAccepted_of_dependency {place : List Segment} {c : Coordinate}
    (h : dependency place v = .ok c) : c.IsAccepted :=
  ((isCheckFor_dependency place v c).1 h).isAccepted

theorem isAccepted_of_configuration {place : List Segment} {conf : Configuration}
    (h : configuration place v = .ok conf) : conf.IsAccepted :=
  ((isCheckFor_configuration place v conf).1 h).isAccepted

end Snapshot

namespace Build

/-- A build has the projects of its modules, in their order. -/
theorem projects_of_ofModules {es : List (Text × Project)} {b : Build} (h : ofModules es = .ok b) :
    b.projects = es := by
  unfold ofModules at h
  split at h
  · exact absurd h (by simp)
  · rw [← Except.ok.inj h]

/-- No path stands for two projects. The project that is looked up is therefore the
one of the module, not merely the first of its path. -/
theorem project?_eq_ok_iff {b : Build} {path : Text} {p : Project} :
    b.project? path = .ok p ↔ (path, p) ∈ b.projects := by
  have hLookup : b.project? path = .ok p ↔ b.projects.lookup path = some p := by
    rw [project?]
    cases b.projects.lookup path <;> simp
  rw [hLookup, List.lookup_eq_some_iff]
  constructor
  · rintro ⟨before, after, heq, -⟩
    simp [heq]
  · intro hMem
    obtain ⟨before, after, heq⟩ := List.append_of_mem hMem
    have hNodup := b.nodup
    rw [heq, List.map_append, List.map_cons] at hNodup
    -- the path is not met before its own entry, so that the search finds this one
    have hNew : path ∉ before.map (·.1) := fun hPath =>
      (List.nodup_append.1 hNodup).2.2 path hPath path List.mem_cons_self rfl
    refine ⟨before, after, heq, fun e he => ?_⟩
    rw [bne_iff_ne]
    rintro rfl
    exact hNew (List.mem_map_of_mem he)

/-- The projects of an accepted build are what its document describes. -/
theorem describesBuild_of_ofDocument {v : Json.Value} {b : Build} (h : ofDocument v = .ok b) :
    Snapshot.DescribesBuild v b.projects := by
  unfold ofDocument at h
  split at h
  · exact absurd h (by simp)
  next es hModules =>
  rw [projects_of_ofModules h]
  exact Snapshot.modules_eq_ok_iff.1 hModules

/-- The modules of an accepted document and the projects of its build, one by one. -/
theorem forall₂_projects {v : Json.Value} {b : Build} (h : ofDocument v = .ok b) :
    List.Forall₂ Snapshot.DescribesModule (v.itemsAt "modules") b.projects :=
  Snapshot.FieldDescribes.forall₂_itemsAt (describesBuild_of_ofDocument h)

/-- An accepted build brings nothing but tokens into lock lines. -/
theorem isAccepted_of_ofDocument {v : Json.Value} {b : Build} (h : ofDocument v = .ok b) :
    ∀ e ∈ b.projects, e.2.IsAccepted := by
  intro e he
  obtain ⟨m, -, hm⟩ := Snapshot.exists_left_of_forall₂ (forall₂_projects h) he
  exact hm.isAccepted

end Build

end Lockstep
