import Lockstep.Proofs.Snapshot.Accepted
import Lockstep.Proofs.Snapshot.Places

/-!
# Lockstep — which documents are accepted

A document has a build iff it describes modules of different paths. Of a document
without a build, either the offending places are known or the first path that two
modules share; and a shared path is reported only if no place offends.

* `exists_describesBuild_iff` — a document describes modules iff no place of it offends.
* `ofDocument_eq_ok_iff`      — the build of a document, if it has one.
* `ofDocument_answers`        — acceptance, and what is said about the documents that are
  not accepted.
-/

namespace Lockstep

-- ---------------------------------------------------------------------------
-- Complaints
-- ---------------------------------------------------------------------------

namespace Snapshot

variable {v : Json.Value} {cs : List Complaint}

/-- The complaints about a document are about its offending places, once about each. -/
theorem locates_of_modules_eq_error (h : modules v = .error cs) :
    Locates (cs.map (·.place)) [] (Part.build.Offends v) := by
  have hPlaces : (modules v).places = cs.map (·.place) := by
    rw [h]
    rfl
  exact hPlaces ▸ reports_modules v

/-- A place is complained about if and only if it offends. -/
theorem mem_places_of_modules_eq_error (h : modules v = .error cs) {place : List Segment} :
    place ∈ cs.map (·.place) ↔ Part.build.Offends v place := by
  rw [(locates_of_modules_eq_error h).mem_iff]
  simp

/-- A document that is refused has an offending place: no check fails without a complaint. -/
theorem exists_offends_of_modules_eq_error (h : modules v = .error cs) :
    ∃ place, Part.build.Offends v place := by
  have hne : cs ≠ [] := fun hNil => isGrounded_modules v (hNil ▸ h)
  obtain ⟨c, rest, rfl⟩ := List.exists_cons_of_ne_nil hne
  exact ⟨c.place, (mem_places_of_modules_eq_error h).1 List.mem_cons_self⟩

/-- The modules of a document are as they must be iff no place of it offends. The
first is said by the grammar, the second by the table of parts; the check stands
between them. -/
theorem exists_describesBuild_iff :
    (∃ es, DescribesBuild v es) ↔ ∀ place, ¬ Part.build.Offends v place := by
  constructor
  · rintro ⟨es, hes⟩ place hOffends
    have hNone : (modules v).places = [] := by
      rw [modules_eq_ok_iff.2 hes]
      rfl
    have hPlace : place ∈ (modules v).places :=
      ((reports_modules v).mem_iff place).2 ⟨place, hOffends, rfl⟩
    exact absurd (hNone ▸ hPlace) List.not_mem_nil
  · intro hNone
    -- the check of the modules has a value or complains, and it does not complain without a place
    cases hModules : modules v with
    | ok es => exact ⟨es, modules_eq_ok_iff.1 hModules⟩
    | error cs =>
      obtain ⟨place, hOffends⟩ := exists_offends_of_modules_eq_error hModules
      exact absurd hOffends (hNone place)

end Snapshot

-- ---------------------------------------------------------------------------
-- Paths that occur twice
-- ---------------------------------------------------------------------------

namespace Build

open Snapshot (DescribesBuild Part)

variable {seen paths : List Text} {path : Text} {es : List (Text × Project)} {b : Build}
  {v : Json.Value}

/-- The path that is found is the first that was seen before. The paths before it
are all different, and none of them was seen at the start. -/
theorem exists_of_firstDuplicate?_eq_some (h : firstDuplicate? seen paths = some path) :
    ∃ before after, paths = before ++ path :: after ∧ (path ∈ seen ∨ path ∈ before) ∧
      before.Nodup ∧ ∀ p ∈ before, p ∉ seen := by
  induction paths generalizing seen with
  | nil => simp [firstDuplicate?] at h
  | cons p rest ih =>
    simp only [firstDuplicate?, List.contains_iff_mem] at h
    split at h
    · -- the first path was seen, or it is one of those seen in the rest
      next hp =>
      obtain rfl := Option.some.inj h
      exact ⟨[], rest, rfl, Or.inl hp, List.nodup_nil, by simp⟩
    · next hp =>
      obtain ⟨before, after, rfl, hPath, hNodup, hNew⟩ := ih h
      refine ⟨p :: before, after, rfl, ?_, List.nodup_cons.2 ⟨fun hMem => ?_, hNodup⟩, ?_⟩
      · simpa [or_comm, or_assoc, or_left_comm] using hPath
      · exact hNew p hMem List.mem_cons_self
      · rintro q (_ | ⟨_, hq⟩)
        · exact hp
        · exact fun hSeen => hNew q hq (List.mem_cons_of_mem _ hSeen)

/-- No path is found if and only if all are different. -/
theorem firstDuplicate?_eq_none_iff : firstDuplicate? [] paths = none ↔ paths.Nodup := by
  constructor
  · exact fun h => (nodup_of_firstDuplicate?_eq_none h).1
  · intro hNodup
    cases h : firstDuplicate? [] paths with
    | none => rfl
    | some path =>
      obtain ⟨before, after, rfl, hPath, -⟩ := exists_of_firstDuplicate?_eq_some h
      have hBefore : path ∈ before := hPath.resolve_left List.not_mem_nil
      exact absurd List.mem_cons_self (List.disjoint_of_nodup_append hNodup hBefore)

/-- Modules are a build if and only if their paths are different, which the build itself guarantees.
-/
theorem ofModules_eq_ok_iff : ofModules es = .ok b ↔ b.projects = es := by
  constructor
  · exact projects_of_ofModules
  · rintro rfl
    unfold ofModules
    split
    · next path h =>
      rw [firstDuplicate?_eq_none_iff.2 b.nodup] at h
      exact absurd h (by simp)
    · rfl

/-- Modules of which two share a path are refused for some path. -/
theorem exists_ofModules_eq_duplicate (h : ¬ (es.map (·.1)).Nodup) :
    ∃ path, ofModules es = .error (.duplicate path) := by
  unfold ofModules
  split
  · next path _ => exact ⟨path, rfl⟩
  · next hNone => exact absurd (nodup_of_firstDuplicate?_eq_none hNone).1 h

-- ---------------------------------------------------------------------------
-- Acceptance
-- ---------------------------------------------------------------------------

/-- Of a valid document, only the paths are left to be looked at. -/
theorem ofDocument_of_describesBuild (h : DescribesBuild v es) : ofDocument v = ofModules es := by
  rw [ofDocument, Snapshot.modules_eq_ok_iff.2 h]

/-- The build of a document holds the projects that the document describes. -/
theorem ofDocument_eq_ok_iff : ofDocument v = .ok b ↔ DescribesBuild v b.projects := by
  constructor
  · exact describesBuild_of_ofDocument
  · intro h
    rw [ofDocument_of_describesBuild h]
    exact ofModules_eq_ok_iff.2 rfl

/-- A document has a build if and only if it describes modules of different paths. -/
theorem exists_ofDocument_eq_ok_iff :
    (∃ b, ofDocument v = .ok b) ↔ ∃ es, DescribesBuild v es ∧ (es.map (·.1)).Nodup := by
  constructor
  · rintro ⟨b, hb⟩
    exact ⟨b.projects, ofDocument_eq_ok_iff.1 hb, b.nodup⟩
  · rintro ⟨es, hes, hNodup⟩
    exact ⟨⟨es, hNodup⟩, ofDocument_eq_ok_iff.2 hes⟩

/-- The siblings are the groups and names of all projects; a project without a group
counts as one with the empty group. -/
theorem mem_siblings {s : Sibling} :
    s ∈ b.siblings ↔ ∃ e ∈ b.projects, s = ⟨e.2.group.getD [], e.2.name⟩ := by
  simp [siblings, Sibling.sortDistinct, Project.sibling, eq_comm]

/-- A document that is refused as invalid is refused by the check of its modules. -/
theorem modules_of_ofDocument_eq_invalid {cs : List Snapshot.Complaint}
    (h : ofDocument v = .error (.invalid cs)) : Snapshot.modules v = .error cs := by
  unfold ofDocument at h
  split at h
  · next hModules =>
    rw [hModules, DocumentError.invalid.inj (Except.error.inj h)]
  · unfold ofModules at h
    split at h <;> simp at h

/-- A path that is reported is the first one that another module of the document has
too. Paths are compared in normal form, so that the modules may have been written in
different ways. -/
theorem describesBuild_of_ofDocument_eq_duplicate
    (h : ofDocument v = .error (.duplicate path)) :
    ∃ es before after, DescribesBuild v es ∧ es.map (·.1) = before ++ path :: after ∧
      path ∈ before ∧ before.Nodup := by
  unfold ofDocument at h
  split at h
  · simp at h
  next es hModules =>
  unfold ofModules at h
  split at h
  · next found hFound =>
    -- the path that is complained about is the first that was there before
    obtain rfl := DocumentError.duplicate.inj (Except.error.inj h)
    obtain ⟨before, after, hPaths, hMem, hNodup, -⟩ := exists_of_firstDuplicate?_eq_some hFound
    exact ⟨es, before, after, Snapshot.modules_eq_ok_iff.1 hModules, hPaths,
      hMem.resolve_left List.not_mem_nil, hNodup⟩
  · simp at h

/--
**Acceptance of documents.** A document has a build iff it describes modules, no two
of them with the same path. The build then has these projects, in the order of the
document, and the siblings are their groups and names. A document that is invalid has
an offending place, and its complaints are about the offending places, about each of
them once. If a path is reported, no place offends, and the path is the first in the
document that an earlier module has too.
-/
theorem ofDocument_answers (v : Json.Value) :
    ((∃ b, ofDocument v = .ok b) ↔ ∃ es, DescribesBuild v es ∧ (es.map (·.1)).Nodup) ∧
    (∀ b, ofDocument v = .ok b →
      DescribesBuild v b.projects ∧
      ∀ s, s ∈ b.siblings ↔ ∃ e ∈ b.projects, s = ⟨e.2.group.getD [], e.2.name⟩) ∧
    (∀ cs, ofDocument v = .error (.invalid cs) →
      (∃ place, Part.build.Offends v place) ∧
      (cs.map (·.place)).Nodup ∧
      ∀ place, place ∈ cs.map (·.place) ↔ Part.build.Offends v place) ∧
    (∀ path, ofDocument v = .error (.duplicate path) →
      (∀ place, ¬ Part.build.Offends v place) ∧
      ∃ es before after, DescribesBuild v es ∧ es.map (·.1) = before ++ path :: after ∧
        path ∈ before ∧ before.Nodup) := by
  refine ⟨exists_ofDocument_eq_ok_iff, fun b hb => ?_, fun cs hcs => ?_, fun path hPath => ?_⟩
  · exact ⟨ofDocument_eq_ok_iff.1 hb, fun s => mem_siblings⟩
  · -- nothing but the check of the modules complains, so that its complaints are the answer
    have hModules := modules_of_ofDocument_eq_invalid hcs
    exact ⟨Snapshot.exists_offends_of_modules_eq_error hModules,
      (Snapshot.locates_of_modules_eq_error hModules).nodup,
      fun place => Snapshot.mem_places_of_modules_eq_error hModules⟩
  · obtain ⟨es, before, after, hes, hDuplicate⟩ := describesBuild_of_ofDocument_eq_duplicate hPath
    exact ⟨Snapshot.exists_describesBuild_iff.1 ⟨es, hes⟩, es, before, after, hes, hDuplicate⟩

end Build

end Lockstep
