import Lockstep.Proofs.LockFile.AcceptedLines
import Lockstep.Proofs.LockFile.Unchanged
import Lockstep.Proofs.Snapshot.Acceptance

/-!
# Lockstep — edges to modules of the same build

An edge to a module of the same build is not to be locked. Whether a dependency is
one is decided by three texts of the document, and the blanks at their ends do not
count alike: the fields of a dependency are taken without them, the group and the
name of a module as they are written.

* `siblingEdge_iff`       — which dependencies of a document are taken for edges to siblings.
* `mem_get_revised`, `mem_empty_revised` — what an update of accepted values records.
* `revise_recordsEdges`   — which edges of a document are locked all the same.
-/

namespace Lockstep

open Json (Value)

-- ---------------------------------------------------------------------------
-- Edges as they are written
-- ---------------------------------------------------------------------------

namespace Snapshot

/-- A module of the document has this group and this name, as they are written. -/
def ListsModule (v : Value) (group name : Text) : Prop :=
  ∃ m ∈ v.itemsAt "modules", m.textAt? "group" = some group ∧ m.textAt? "name" = some name

/-- As it is written, a dependency of one module names another module of the same group. -/
structure WrittenEdge (m target dependency : Value) (group name : Text) : Prop where
  own_group : m.textAt? "group" = some group
  target_group : target.textAt? "group" = some group
  target_name : target.textAt? "name" = some name
  group : dependency.textAt? "group" = some group
  artifact : dependency.textAt? "artifact" = some name

section Described

variable {v m target dep : Value} {b : Build} {e : Text × Project} {d : Coordinate}
  {group name : Text}

/-- The siblings of a build are its modules with a group. The group and the name are
taken as they are written, blanks and all. -/
theorem mem_siblings_iff_listsModule (hDoc : Build.ofDocument v = .ok b) (hGroup : group ≠ []) :
    ⟨group, name⟩ ∈ b.siblings ↔ ListsModule v group name := by
  rw [Build.mem_siblings]
  constructor
  · rintro ⟨e, he, heq⟩
    obtain ⟨hg, rfl⟩ := Sibling.mk.inj heq
    obtain ⟨m, hm, hDescribed⟩ := exists_left_of_forall₂ (Build.forall₂_projects hDoc) he
    refine ⟨m, hm, ?_, hDescribed.name.textAt?⟩
    rw [hDescribed.group.textAt?]
    -- a missing group would count as an empty one
    cases hWritten : e.2.group with
    | none => exact absurd (by rw [hg, hWritten]; rfl) hGroup
    | some g => rw [hg, hWritten, Option.getD_some]
  · rintro ⟨m, hm, hg, hName⟩
    obtain ⟨e, he, hDescribed⟩ := exists_right_of_forall₂ (Build.forall₂_projects hDoc) hm
    rw [hDescribed.group.textAt?] at hg
    rw [hDescribed.name.textAt?, Option.some.injEq] at hName
    exact ⟨e, he, by rw [hg, hName, Option.getD_some]⟩

/-- A dependency is taken for an edge to a sibling iff its trimmed texts are those of the modules.
-/
theorem siblingEdge_iff (hDoc : Build.ofDocument v = .ok b) (hm : DescribesModule m e)
    (hDep : DescribesDependency dep d) (hGroup : dep.textAt? "group" = some group)
    (hName : dep.textAt? "artifact" = some name) :
    e.2.SiblingEdge b.siblings d ↔
      m.textAt? "group" = some group.trim ∧ ListsModule v group.trim name.trim := by
  have hg : d.group = group.trim := hDep.group.eq_trim hGroup
  have ha : d.artifact = name.trim := hDep.artifact.eq_trim hName
  have hne : group.trim ≠ [] := hg ▸ hDep.group.isToken.ne_nil
  rw [Project.SiblingEdge, hg, ha, mem_siblings_iff_listsModule hDoc hne, hm.group.textAt?]

/-- An edge as it is written is taken for one iff the group is trimmed and a module has the trimmed
name. -/
theorem WrittenEdge.siblingEdge_iff (hEdge : WrittenEdge m target dep group name)
    (hDoc : Build.ofDocument v = .ok b) (hm : DescribesModule m e)
    (hDep : DescribesDependency dep d) :
    e.2.SiblingEdge b.siblings d ↔ group.trim = group ∧ ListsModule v group name.trim := by
  rw [Snapshot.siblingEdge_iff hDoc hm hDep hEdge.group hEdge.artifact, hEdge.own_group,
    Option.some.injEq, eq_comm]
  refine and_congr_right fun hTrim => ?_
  rw [hTrim]

end Described

end Snapshot

-- ---------------------------------------------------------------------------
-- What an update records
-- ---------------------------------------------------------------------------

namespace LockFile

open Snapshot

variable {p : Project} {siblings : List Sibling} {text n : Text} {c d : Coordinate}
  {conf : Configuration}

/-- What an update of accepted values writes is split where it was joined. -/
theorem isSeparated_reconcile_parse (text : Text) (siblings : List Sibling) (hp : p.IsAccepted) :
    ((parse text).reconcile p siblings).lock.IsSeparated where
  coordinates := Lock.forall_keys_reconcile (isPlain_parse text).isSeparated.coordinates
    fun conf hConf d hd => ((hp conf hConf).resolved d hd).isSeparated
  names := fun _ hn => isName_of_mem_tracked_reconcile hn

/-- The text after an update has what was reconciled, but for entries that are read
as comments. -/
theorem mem_get_revised (hp : p.IsAccepted) :
    n ∈ (parse (revised text p siblings)).lock.locked.get c ↔
      n ∈ ((parse text).lock.reconcile p siblings).locked.get c ∧
        ¬ Line.commentMark <+: c.group :=
  mem_get_written marked_reconcile_parse (isSeparated_reconcile_parse text siblings hp) text

/-- The names with nothing to lock are read back as they were reconciled. -/
theorem mem_empty_revised (hp : p.IsAccepted) :
    n ∈ (parse (revised text p siblings)).lock.empty ↔
      n ∈ ((parse text).lock.reconcile p siblings).empty :=
  mem_empty_written marked_reconcile_parse (isSeparated_reconcile_parse text siblings hp) text

/-- A dependency of a recomputed configuration is recorded unless it is an edge to a
sibling. If its group starts as comments do, its line is not read as an entry. -/
theorem mem_get_revised_of_mem_resolved (hp : p.IsAccepted) (hConf : conf ∈ p.configurations)
    (hRes : conf.resolvable = true) (hTracked : conf.name ∈ (parse text).lock.tracked)
    (hd : d ∈ conf.resolved) :
    conf.name ∈ (parse (revised text p siblings)).lock.locked.get d ↔
      ¬ p.SiblingEdge siblings d ∧ ¬ Line.commentMark <+: d.group := by
  have hRec := (Lock.recomputes_name_iff hConf hRes).2 hTracked
  have hLocks : p.Locks siblings conf.name d ↔ ¬ p.SiblingEdge siblings d := by
    constructor
    · rintro ⟨-, -, -, -, -, hexternal⟩
      exact hexternal
    · exact fun hexternal => ⟨conf, hConf, hRes, rfl, hd, hexternal⟩
  rw [mem_get_revised hp, Lock.mem_get_reconcile, hLocks]
  simp [hRec]

/-- A recomputed configuration with nothing but edges to siblings has nothing to lock. -/
theorem mem_empty_revised_of_siblingEdges (hp : p.IsAccepted) (hConf : conf ∈ p.configurations)
    (hRes : conf.resolvable = true) (hTracked : conf.name ∈ (parse text).lock.tracked)
    (hAll : ∀ d ∈ conf.resolved, p.SiblingEdge siblings d) :
    conf.name ∈ (parse (revised text p siblings)).lock.empty := by
  have hRec := (Lock.recomputes_name_iff hConf hRes).2 hTracked
  rw [mem_empty_revised hp, Lock.mem_empty_reconcile]
  exact Or.inr ⟨hRec, conf, hConf, hRes, rfl, hAll⟩

/-- What a lock records about the edges of a configuration to modules of the same build. -/
structure RecordsEdges (v m written : Value) (conf : Configuration) (l : Lock) : Prop where
  /-- An edge is locked if it is not taken for one, unless its line is a comment. -/
  locked_iff : ∀ dep ∈ written.itemsAt "resolved", ∀ target ∈ v.itemsAt "modules",
    ∀ group name, WrittenEdge m target dep group name →
      ∃ d ∈ conf.resolved, DescribesDependency dep d ∧
        (conf.name ∈ l.locked.get d ↔
          ¬ (group.trim = group ∧ ListsModule v group name.trim) ∧ ¬ "# ".text <+: group.trim)
  /-- If all dependencies are edges that are taken for such, there is nothing to lock. -/
  mem_empty : (∀ dep ∈ written.itemsAt "resolved", ∃ target ∈ v.itemsAt "modules",
    ∃ group name, WrittenEdge m target dep group name ∧
      group.trim = group ∧ ListsModule v group name.trim) → conf.name ∈ l.empty

/-- Between texts without blanks at their ends no edge is locked. -/
theorem RecordsEdges.not_mem_of_trimmed {v m written dep target : Value} {l : Lock}
    {group name : Text} (h : RecordsEdges v m written conf l)
    (hDep : dep ∈ written.itemsAt "resolved") (hTarget : target ∈ v.itemsAt "modules")
    (hEdge : WrittenEdge m target dep group name) (hGroup : group.trim = group)
    (hName : name.trim = name) :
    ∃ d ∈ conf.resolved, DescribesDependency dep d ∧ conf.name ∉ l.locked.get d := by
  obtain ⟨d, hd, hDescribed, hLocked⟩ := h.locked_iff dep hDep target hTarget group name hEdge
  have hListed : ListsModule v group name.trim :=
    ⟨target, hTarget, hEdge.target_group, by rw [hName, hEdge.target_name]⟩
  exact ⟨d, hd, hDescribed, fun hMem => (hLocked.1 hMem).1 ⟨hGroup, hListed⟩⟩

/--
**Edges to modules of the same build.** Let a configuration of an accepted document be
recomputed in an update. A dependency that names a module of the same group, as both
are written, is locked iff the group has blanks at its ends, or the name without the
blanks at its ends is the name of no module of the group; but not if the group starts
as comments do. If all dependencies are edges and none is locked for these reasons, the
configuration has nothing to lock.
-/
theorem revise_recordsEdges {v m written : Value} {b : Build}
    (hDoc : Build.ofDocument v = .ok b) (hm : m ∈ v.itemsAt "modules")
    (hWritten : written ∈ m.itemsAt "configurations") :
    ∃ path p conf, DescribesModule m (path, p) ∧ b.project? path = .ok p ∧
      conf ∈ p.configurations ∧ DescribesConfiguration written conf ∧
      ∀ text, conf.resolvable = true → conf.name ∈ (parse text).lock.tracked →
        ∃ r, revise text p b.siblings = .ok r ∧
          RecordsEdges v m written conf (parse r.text).lock := by
  obtain ⟨⟨path, p⟩, he, hModule⟩ := exists_right_of_forall₂ (Build.forall₂_projects hDoc) hm
  obtain ⟨conf, hConf, hDescribed⟩ :=
    exists_right_of_forall₂ hModule.configurations.forall₂_itemsAt hWritten
  have hp : p.IsAccepted := hModule.isAccepted
  refine ⟨path, p, conf, hModule, Build.project?_eq_ok_iff.2 he, hConf, hDescribed,
    fun text hRes hTracked => ?_⟩
  obtain ⟨r, hr, hRevised⟩ :=
    exists_revise_eq_ok (isAllBlank_of_mem_tracked_parse hTracked) p b.siblings
  refine ⟨r, hr, fun dep hDep target _ group name hEdge => ?_, fun hAll => ?_⟩
  · obtain ⟨d, hd, hDescribedDep⟩ :=
      exists_right_of_forall₂ hDescribed.resolved.forall₂_itemsAt hDep
    -- the accepted dependency has the trimmed texts, while the edge is about those that are written
    have hGroup : d.group = group.trim := hDescribedDep.group.eq_trim hEdge.group
    refine ⟨d, hd, hDescribedDep, ?_⟩
    rw [hRevised, mem_get_revised_of_mem_resolved hp hConf hRes hTracked hd, hGroup,
      hEdge.siblingEdge_iff hDoc hModule hDescribedDep]
    rfl
  · rw [hRevised]
    refine mem_empty_revised_of_siblingEdges hp hConf hRes hTracked fun d hd => ?_
    obtain ⟨dep, hDep, hDescribedDep⟩ :=
      exists_left_of_forall₂ hDescribed.resolved.forall₂_itemsAt hd
    obtain ⟨target, -, group, name, hEdge, hListed⟩ := hAll dep hDep
    exact (hEdge.siblingEdge_iff hDoc hModule hDescribedDep).2 hListed

private def textFields (parts : List (String × String)) : List (Text × Value) :=
  parts.map fun (name, text) => (name.text, .string text.text)

private def edgeTo (name : String) : Value :=
  .object (textFields [("group", "com.acme"), ("artifact", name), ("version", "1")])

private def mainOnto (name : String) : Value :=
  .object [("name".text, .string "main".text), ("resolved".text, .array [edgeTo name])]

private def appOnto (name : String) : Value :=
  .object (textFields [("path", "app"), ("name", "app"), ("group", "com.acme")] ++
    [("configurations".text, .array [mainOnto name])])

private def coreNamed (name : String) : Value :=
  .object (textFields [("path", "core"), ("name", name), ("group", "com.acme")])

/-- A document in which one module depends on another, of this name. -/
private def acme (name : String) : Value :=
  .object [("modules".text, .array [appOnto name, coreNamed name])]

private def app : Project where
  name := "app".text
  group := some "com.acme".text
  configurations := [⟨"main".text, true, [⟨"com.acme".text, "core".text, "1".text⟩]⟩]

private def coreProject (name : String) : Project where
  name := name.text
  group := some "com.acme".text

private def acmeBuild (name : String) : Build :=
  ⟨[("app".text, app), ("core".text, coreProject name)],
    (by decide : ["app".text, "core".text].Nodup)⟩

theorem revise_recordsEdges_acme :
    Build.ofDocument (acme "core") = .ok (acmeBuild "core") ∧
      appOnto "core" ∈ (acme "core").itemsAt "modules" ∧
      mainOnto "core" ∈ (appOnto "core").itemsAt "configurations" ∧
      ∃ path p conf, DescribesModule (appOnto "core") (path, p) ∧
        (acmeBuild "core").project? path = .ok p ∧ conf ∈ p.configurations ∧
        DescribesConfiguration (mainOnto "core") conf ∧
        ∀ text, conf.resolvable = true → conf.name ∈ (parse text).lock.tracked →
          ∃ r, revise text p (acmeBuild "core").siblings = .ok r ∧
            RecordsEdges (acme "core") (appOnto "core") (mainOnto "core") conf
              (parse r.text).lock :=
  have hDoc : Build.ofDocument (acme "core") = .ok (acmeBuild "core") := by rfl
  have hApp : appOnto "core" ∈ (acme "core").itemsAt "modules" := .head _
  have hMain : mainOnto "core" ∈ (appOnto "core").itemsAt "configurations" := .head _
  ⟨hDoc, hApp, hMain, revise_recordsEdges hDoc hApp hMain⟩

/-- A module that is named with blanks, as is the dependency on it, which is locked
without them. -/
theorem update_locks_edge_to_blank_name :
    Build.ofDocument (acme " core ") = .ok (acmeBuild " core ") ∧
      appOnto " core " ∈ (acme " core ").itemsAt "modules" ∧
      coreNamed " core " ∈ (acme " core ").itemsAt "modules" ∧
      mainOnto " core " ∈ (appOnto " core ").itemsAt "configurations" ∧
      edgeTo " core " ∈ (mainOnto " core ").itemsAt "resolved" ∧
      WrittenEdge (appOnto " core ") (coreNamed " core ") (edgeTo " core ") "com.acme".text
        " core ".text ∧
      (acmeBuild " core ").project? "app".text = .ok app ∧
      update "com.acme:core:0=main\nempty=\n".text app (acmeBuild " core ").siblings =
        .ok (some "com.acme:core:1=main\nempty=\n".text) :=
  ⟨by rfl, .head _, .tail _ (.head _), .head _, .head _, ⟨by rfl, by rfl, by rfl, by rfl, by rfl⟩,
    by rfl, by rfl⟩

end LockFile

end Lockstep
