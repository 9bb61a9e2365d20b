import Lockstep.Command.Program
import Lockstep.Proofs.Batch.Interleaving
import Lockstep.Proofs.Discovery.Found
import Mathlib.Data.List.Basic

/-!
# Lockstep — the jobs of the update command

An update has one job for each lock file that was found and belongs to a module of
the build (`mem_jobsFound`). These jobs are about different lock files, so that what is
left on the disk is what the jobs leave there one by one (`disk_updateFound`).

What is told of them goes to the standard output, which takes only texts that can be
encoded: what comes before one that cannot is written, and nothing after it. So there are
two ways in which an update ends. All jobs have results, and the report is written to its
end if the paths in it can be encoded (`updateFound_of_collect`); or the new text of a job
cannot be encoded, and nothing is announced (`updateFound_of_not_isWritable`).
-/

namespace Lockstep

namespace Command

variable {d : Disk} {b : Build} {root : Path} {paths : List Path} {j : Job}

-- ---------------------------------------------------------------------------
-- Jobs
-- ---------------------------------------------------------------------------

/-- The jobs for the lock files that belong to modules of the build. -/
def jobsFound (b : Build) (root : Path) (paths : List Path) : List Job :=
  (paths.map (jobOf b root)).filterMap Except.toOption

/-- A lock file has a job if its module is one of the build; the job is for this
file and this project. In all other cases an event tells why there is none. -/
theorem jobOf_eq_ok_iff {lock : Path} :
    jobOf b root lock = .ok j ↔
      lock = j.path ∧ ∃ key, moduleOf root j.path = .ok key ∧ b.project? key = .ok j.project := by
  unfold jobOf
  constructor
  · intro h
    cases hKey : moduleOf root lock with
    | error e => simp [hKey] at h
    | ok key =>
      cases hProject : b.project? key with
      | error e => simp [hKey, hProject] at h
      | ok p =>
        simp only [hKey, hProject, Except.ok.injEq] at h
        subst h
        exact ⟨rfl, key, hKey, hProject⟩
  · rintro ⟨rfl, key, hKey, hProject⟩
    simp only [hKey, hProject]

/-- There is a job for each lock file that was found and belongs to a module of the
build, and no other. -/
theorem mem_jobsFound :
    j ∈ jobsFound b root paths ↔
      j.path ∈ paths ∧ ∃ key, moduleOf root j.path = .ok key ∧ b.project? key = .ok j.project := by
  have hOption {r : Except Event Job} : r.toOption = some j ↔ r = .ok j := by
    cases r <;> simp [Except.toOption]
  rw [jobsFound, List.mem_filterMap]
  simp only [List.mem_map, hOption]
  constructor
  · rintro ⟨_, ⟨lock, hLock, rfl⟩, hJob⟩
    obtain ⟨rfl, hKey⟩ := jobOf_eq_ok_iff.1 hJob
    exact ⟨hLock, hKey⟩
  · rintro ⟨hLock, hKey⟩
    exact ⟨_, ⟨j.path, hLock, rfl⟩, jobOf_eq_ok_iff.2 ⟨rfl, hKey⟩⟩

/-- No two jobs are about the same file, since each file was found once and
different paths that were found lead to different places. -/
theorem apart_jobsFound (hNodup : paths.Nodup) (hFound : ∀ p ∈ paths, IsFound d root p) :
    Batch.Apart d (jobsFound b root paths) := by
  unfold Batch.Apart jobsFound
  rw [List.filterMap_map, List.pairwise_filterMap]
  refine hNodup.imp_of_mem fun {p q} hp hq hne i hi j hj => ?_
  have hPath {lock : Path} {k : Job} (hk : (Except.toOption ∘ jobOf b root) lock = some k) :
      lock = k.path := by
    refine (jobOf_eq_ok_iff.1 (?_ : jobOf b root lock = .ok k)).1
    rw [Function.comp_apply] at hk
    cases hJob : jobOf b root lock with
    | error e => simp [hJob, Except.toOption] at hk
    | ok k' => simpa [hJob, Except.toOption] using hk
  rw [← hPath hi, ← hPath hj]
  exact (hFound p hp).not_samePlace (hFound q hq) hne

-- ---------------------------------------------------------------------------
-- What is told
-- ---------------------------------------------------------------------------

/-- What a line of the output says after a word and a colon, if it starts with them. -/
def Emission.after? (word : String) : Emission → Option Text
  | .out t =>
    let mark := word.text ++ ": ".text
    if mark.isPrefixOf t then some (t.drop mark.length).dropLast else none
  | _ => none

/-- What a run announces with a word, before control sequences are taken out of it. -/
def Outcome.announced (word : String) (o : Outcome) : List Text :=
  o.emitted.filterMap (Emission.after? word)

/-- A line that starts with the word and a colon announces what follows, without
the line feed. -/
theorem after?_line (word : String) (t : Text) :
    (Emission.out (line (word.text ++ ": ".text ++ t))).after? word = some t := by
  have hPrefix : (word.text ++ ": ".text).isPrefixOf (line (word.text ++ ": ".text ++ t)) := by
    rw [List.isPrefixOf_iff_prefix, line, List.append_assoc _ t]
    exact List.prefix_append _ _
  rw [Emission.after?, if_pos hPrefix, line, List.append_assoc _ t, List.drop_left,
    List.dropLast_concat]

/-- A line that starts with a number announces nothing. The word of an
announcement starts with a letter that is no digit, while the digits of a number
are never missing. -/
theorem after?_count {word : String} {c : Char} {rest : Text} (hWord : word.text = char c :: rest)
    (hc : c.isDigit = false) (n : Nat) (t : Text) :
    (Emission.out (line (Text.ofNat n ++ t))).after? word = none := by
  rw [Emission.after?, if_neg]
  rw [List.isPrefixOf_iff_prefix, hWord, line, Text.ofNat]
  intro hPrefix
  cases hDigits : Nat.toDigits 10 n with
  | nil => exact Nat.toDigits_ne_nil hDigits
  | cons digit others =>
    rw [hDigits, List.map_cons, List.cons_append, List.cons_append, List.cons_append] at hPrefix
    -- the word would have to begin with the first digit of the number
    have hFirst : c = digit := Letter.char.inj (List.cons_prefix_cons.1 hPrefix).1
    have hDigit : digit.isDigit = true := by
      refine Nat.isDigit_of_mem_toDigits (by decide) (by decide) (n := n) (b := 10) ?_
      rw [hDigits]
      exact List.mem_cons_self
    rw [hFirst, hDigit] at hc
    exact absurd hc (by decide)

/-- The word with which an update announces files. -/
def announcement (check : Bool) : String := if check then "outdated" else "updated"

/-- The last line of a report. -/
def summary (check : Bool) (changed all : Nat) : Text :=
  s!"{changed} of {all} lock file(s) {announcement check}.".text

/-- The last line of a report announces nothing. -/
theorem after?_summary (check : Bool) (changed all : Nat) :
    (Emission.out (line (summary check changed all))).after? (announcement check) = none := by
  have hText : summary check changed all =
      Text.ofNat changed ++ s!" of {all} lock file(s) {announcement check}.".text := by
    have hDigits : Text.ofNat changed = (toString changed).text := by
      rw [Text.ofNat, ← Nat.toList_repr]
      rfl
    rw [hDigits, ← String.text_append]
    exact congrArg String.text (by simp only [String.append_assoc])
  rw [hText]
  cases check with
  | false => exact after?_count (show (announcement false).text = char 'u' :: _ from rfl) (by decide) changed _
  | true => exact after?_count (show (announcement true).text = char 'o' :: _ from rfl) (by decide) changed _

/-- A report names the files that are not in step, then those that cannot be read,
and ends with their number. -/
theorem updateReport_eq (root : Path) (check : Bool) (results : List FileResult) :
    updateReport root check results =
      (results.filter (·.changed)).map (fun r => .out (line
        ((announcement check).text ++ ": ".text ++ shownBelow root r.path))) ++
      (results.filter (·.skipped)).map (fun r => .err (line
        ("skipped (unreadable): ".text ++ shownBelow root r.path))) ++
      [.out (line (summary check (results.filter (·.changed)).length results.length))] := rfl

/-- A report announces the lock files that are not in step, in the order of the
results. The lines about unreadable files go elsewhere, and the last line begins
with a number. -/
theorem announced_updateReport (root : Path) (check : Bool) (results : List FileResult) :
    (updateReport root check results).filterMap (Emission.after? (announcement check)) =
      (results.filter (·.changed)).map fun r => shownBelow root r.path := by
  have hChanged (rs : List FileResult) :
      (rs.map fun r => Emission.out (line
        ((announcement check).text ++ ": ".text ++ shownBelow root r.path))).filterMap
          (Emission.after? (announcement check)) = rs.map fun r => shownBelow root r.path := by
    rw [List.filterMap_map, ← List.filterMap_eq_map]
    exact List.filterMap_congr fun r _ => after?_line (announcement check) (shownBelow root r.path)
  -- files that cannot be read are named on the standard error, where nothing is announced
  have hSkipped (rs : List FileResult) :
      (rs.map fun r => Emission.err (line
        ("skipped (unreadable): ".text ++ shownBelow root r.path))).filterMap
          (Emission.after? (announcement check)) = [] := by
    rw [List.filterMap_map]
    exact List.filterMap_eq_nil_iff.2 fun r _ => rfl
  rw [updateReport_eq, List.filterMap_append, List.filterMap_append, hChanged, hSkipped,
    List.filterMap_cons_none (after?_summary check _ _), List.filterMap_nil, List.append_nil,
    List.append_nil]

-- ---------------------------------------------------------------------------
-- What can be told
-- ---------------------------------------------------------------------------

/-- A text can be written to the standard output if it can be encoded. -/
theorem fault?_out_eq_none_iff {t : Text} :
    (Emission.out t).fault? = none ↔ Utf8.IsEncodable t := by
  rw [← Utf8.isEncodable_withoutControls_iff, Emission.fault?, Utf8.IsEncodable]
  cases Utf8.encode t.withoutControls <;> simp

/-- A report is written to its end iff the paths that it announces can be encoded.
The rest of it is made of characters, or goes to the standard error. -/
theorem findSome?_fault?_updateReport_iff (root : Path) (check : Bool) (results : List FileResult) :
    (updateReport root check results).findSome? Emission.fault? = none ↔
      ∀ r ∈ results, r.changed = true → Utf8.IsEncodable (shownBelow root r.path) := by
  -- of the lines on the standard output, only these hold a text that was not made here
  have hAnnounced (t : Text) :
      (Emission.out (line ((announcement check).text ++ ": ".text ++ t))).fault? = none ↔
        Utf8.IsEncodable t := by
    rw [fault?_out_eq_none_iff, line, Utf8.isEncodable_append, Utf8.isEncodable_append]
    have hMark : Utf8.IsEncodable ((announcement check).text ++ ": ".text) := by
      cases check <;> decide
    simp only [hMark, true_and, and_iff_left_iff_imp]
    exact fun _ => by decide
  have hSummary (changed all : Nat) : (Emission.out (line (summary check changed all))).fault? = none := by
    rw [fault?_out_eq_none_iff, line, Utf8.isEncodable_append]
    exact ⟨Utf8.isEncodable_text _, by decide⟩
  have hSkipped (t : Text) : (Emission.err t).fault? = none := rfl
  rw [updateReport_eq, List.findSome?_eq_none_iff]
  simp only [List.forall_mem_append, List.forall_mem_map, List.mem_singleton, forall_eq, hSummary,
    hSkipped, implies_true, and_true, hAnnounced, List.mem_filter, and_imp]

theorem deliver_eq {emissions : List Emission} (code : Nat) (d : Disk)
    (h : emissions.findSome? Emission.fault? = none) :
    Outcome.deliver code d emissions = ⟨code, emissions, d, none, {}⟩ := by
  rw [Outcome.deliver, h]

@[simp] theorem disk_deliver (code : Nat) (d : Disk) (emissions : List Emission) :
    (Outcome.deliver code d emissions).disk = d := by
  unfold Outcome.deliver
  split <;> rfl

/-- What is not written at the end of a run is not among what it has written. -/
theorem fault?_of_mem_deliver {code : Nat} {emissions : List Emission} {e : Emission}
    (h : e ∈ (Outcome.deliver code d emissions).emitted) : e.fault? = none := by
  unfold Outcome.deliver at h
  split at h
  · next hNone => exact List.findSome?_eq_none_iff.1 hNone e h
  · have hNone : e.fault?.isNone = true := by
      simpa using List.mem_takeWhile_imp h
    exact Option.isNone_iff_eq_none.1 hNone

/-- What comes before anything that cannot be written is written. -/
theorem mem_emitted_deliver {code : Nat} {before rest : List Emission} {e : Emission}
    (h : ∀ e ∈ before, e.fault? = none) (he : e ∈ before) :
    e ∈ (Outcome.deliver code d (before ++ rest)).emitted := by
  unfold Outcome.deliver
  split
  · exact List.mem_append_left _ he
  · rw [Outcome.escape, List.takeWhile_append_of_pos fun e he => by simp [h e he]]
    exact List.mem_append_left _ he

/-- What a run has announced can be encoded, because the line that announces it was
written. A path that cannot be encoded is therefore never announced. -/
theorem isEncodable_of_mem_announced {word : String} {o : Outcome} {t : Text}
    (h : ∀ e ∈ o.emitted, e.fault? = none) (ht : t ∈ o.announced word) : Utf8.IsEncodable t := by
  obtain ⟨e, he, hAfter⟩ := List.mem_filterMap.1 ht
  cases e with
  | out written =>
    simp only [Emission.after?] at hAfter
    split at hAfter
    · obtain rfl := Option.some.inj hAfter
      refine (fault?_out_eq_none_iff.1 (h _ he)).of_subset fun c hc => ?_
      exact List.mem_of_mem_drop (List.dropLast_subset _ hc)
    · exact absurd hAfter (by simp)
  | err text => exact absurd hAfter (by simp [Emission.after?])
  | log event => exact absurd hAfter (by simp [Emission.after?])

-- ---------------------------------------------------------------------------
-- What an update leaves behind
-- ---------------------------------------------------------------------------

/-- Events announce nothing, and can always be written. -/
theorem filterMap_after?_of_log {word : String} {es : List Emission}
    (h : ∀ e ∈ es, ∃ event, e = .log event) : es.filterMap (Emission.after? word) = [] := by
  refine List.filterMap_eq_nil_iff.2 fun e he => ?_
  obtain ⟨event, rfl⟩ := h e he
  rfl

theorem fault?_of_log {es : List Emission} (h : ∀ e ∈ es, ∃ event, e = .log event) :
    ∀ e ∈ es, e.fault? = none := by
  intro e he
  obtain ⟨event, rfl⟩ := h e he
  rfl

theorem findSome?_fault?_of_log {es : List Emission} (h : ∀ e ∈ es, ∃ event, e = .log event) :
    es.findSome? Emission.fault? = none :=
  List.findSome?_eq_none_iff.2 (fault?_of_log h)

/-- What is told of lock files without a job are events. -/
theorem eq_log_of_mem_skips {found : List (Except Event Job)} {e : Emission}
    (he : e ∈ found.filterMap fun
      | .error event => some (Emission.log event)
      | .ok _ => none) : ∃ event, e = .log event := by
  obtain ⟨r, -, hr⟩ := List.mem_filterMap.1 he
  cases r with
  | ok j => simp at hr
  | error event => exact ⟨event, (Option.some.inj hr).symm⟩

/-- The line of an update without jobs. -/
def nothingToDo : Emission := .out (line "No lock files to update.".text)

/-- An update writes events first, and then what it tells of its results, if
it has any. Everything that is said about its outcome further on is read off
this equation. -/
theorem updateFound_eq (env : Environment) (call : UpdateCall)
    (hApart : Batch.Apart d (jobsFound b root paths)) :
    ∃ skips later, (∀ e ∈ skips, ∃ event, e = .log event) ∧ (∀ e ∈ later, ∃ event, e = .log event) ∧
      updateFound env d call b root paths =
        if (jobsFound b root paths).isEmpty then Outcome.deliver 0 d (skips ++ [nothingToDo])
        else
          let left := (jobsFound b root paths).foldl (Batch.settle b.siblings (!call.check) d) d
          match Batch.collect ((jobsFound b root paths).map fun j =>
            (j.run b.siblings (!call.check) d).1) with
          | .error e => Outcome.escape left (.update e) (skips ++ later)
          | .ok results =>
            Outcome.deliver (if call.check && results.any (·.changed) then 1 else 0) left
              (skips ++ later ++ updateReport root call.check results) := by
  obtain ⟨hEnds, hDisk⟩ := Batch.updateAll_ends b.siblings (!call.check) hApart
  -- the jobs are put together in passing; under their name, what is known of them applies
  have hFold : (paths.map (jobOf b root)).filterMap Except.toOption = jobsFound b root paths := rfl
  unfold updateFound
  simp only [hFold, ← hEnds, ← hDisk]
  refine ⟨_, (workers call.jobs env).2.map .log ++
    (Batch.updateAll b.siblings (!call.check) (jobsFound b root paths) d).events.map .log,
    fun e he => eq_log_of_mem_skips he, ?_, by simp only [List.append_assoc]; rfl⟩
  rw [List.forall_mem_append, List.forall_mem_map, List.forall_mem_map]
  exact ⟨fun event _ => ⟨event, rfl⟩, fun event _ => ⟨event, rfl⟩⟩

/-- Whatever becomes of an update, the disk is left as the jobs leave it. An error
of one job, or of the output, does not take back what others have written. -/
theorem disk_updateFound (env : Environment) (call : UpdateCall)
    (hApart : Batch.Apart d (jobsFound b root paths)) :
    (updateFound env d call b root paths).disk =
      (jobsFound b root paths).foldl (Batch.settle b.siblings (!call.check) d) d := by
  obtain ⟨skips, later, -, -, hRun⟩ := updateFound_eq env call hApart
  rw [hRun]
  split
  · next hEmpty => rw [disk_deliver, List.isEmpty_iff.1 hEmpty, List.foldl_nil]
  · dsimp only
    split
    · rfl
    · rw [disk_deliver]

/-- What an update writes can all be written: the output of a run stops before the
first text that cannot be encoded. -/
theorem fault?_of_mem_updateFound (env : Environment) (call : UpdateCall)
    (hApart : Batch.Apart d (jobsFound b root paths)) :
    ∀ e ∈ (updateFound env d call b root paths).emitted, e.fault? = none := by
  obtain ⟨skips, later, hSkips, hLater, hRun⟩ := updateFound_eq env call hApart
  intro e he
  rw [hRun] at he
  split at he
  · exact fault?_of_mem_deliver he
  · dsimp only at he
    split at he
    · exact fault?_of_log (List.forall_mem_append.2 ⟨hSkips, hLater⟩) e he
    · exact fault?_of_mem_deliver he

/-- Jobs without an error have results, as do all that do not write. The files were
found, so that none of them is misnamed and each has a path that a file can have. -/
theorem exists_collect_jobsFound (write : Bool) (hFound : ∀ p ∈ paths, IsFound d root p)
    (hWrite : write = true → ∀ j ∈ jobsFound b root paths, j.IsWritable b.siblings d) :
    ∃ results : List FileResult,
      Batch.collect ((jobsFound b root paths).map fun j => (j.run b.siblings write d).1) = .ok results ∧
      results.map Except.ok = (jobsFound b root paths).map fun j => (j.run b.siblings write d).1 := by
  have hJobs : ∀ j ∈ jobsFound b root paths, IsFound d root j.path := fun j hj =>
    hFound j.path (mem_jobsFound.1 hj).1
  have hAll : (jobsFound b root paths).find? (fun j => !isLockFile j.path) = none :=
    List.find?_eq_none.2 fun j hj => by simp [(hJobs j hj).named]
  have hCollect := Batch.collect_run b.siblings write d (fun j hj => (hJobs j hj).isPathText) hWrite
  rwa [hAll] at hCollect

/-- An update with results whose report can be written to its end. It ends by
itself, and announces the files of the results that tell of a change. -/
theorem updateFound_of_collect (env : Environment) (call : UpdateCall) {results : List FileResult}
    (hApart : Batch.Apart d (jobsFound b root paths))
    (hResults : Batch.collect ((jobsFound b root paths).map fun j =>
      (j.run b.siblings (!call.check) d).1) = .ok results)
    (hShown : ∀ r ∈ results, r.changed = true → Utf8.IsEncodable (shownBelow root r.path)) :
    let o := updateFound env d call b root paths
    o.escaped = none ∧
      o.code = (if call.check && results.any (·.changed) then 1 else 0) ∧
      o.announced (announcement call.check) =
        (results.filter (·.changed)).map fun r => shownBelow root r.path := by
  intro o
  obtain ⟨skips, later, hSkips, hLater, hRun⟩ := updateFound_eq env call hApart
  cases hEmpty : (jobsFound b root paths).isEmpty with
  | true =>
    rw [List.isEmpty_iff.1 hEmpty] at hResults
    obtain rfl := Except.ok.inj hResults
    -- without jobs there are no results, and the one line that is written announces nothing
    have hIdle : nothingToDo.after? (announcement call.check) = none := by
      cases call.check <;> decide
    have hFault : (skips ++ [nothingToDo]).findSome? Emission.fault? = none := by
      rw [List.findSome?_append, findSome?_fault?_of_log hSkips]
      decide
    rw [hEmpty, if_pos rfl, deliver_eq 0 d hFault] at hRun
    rw [show o = _ from hRun]
    refine ⟨rfl, by simp, ?_⟩
    rw [Outcome.announced, List.filterMap_append, filterMap_after?_of_log hSkips,
      List.filterMap_cons_none hIdle]
    rfl
  | false =>
    -- events are never at fault, so that the report decides
    have hFault : (skips ++ later ++ updateReport root call.check results).findSome?
        Emission.fault? = none := by
      rw [List.findSome?_append, List.findSome?_append, findSome?_fault?_of_log hSkips,
        findSome?_fault?_of_log hLater, (findSome?_fault?_updateReport_iff root _ results).2 hShown]
      rfl
    simp only [hEmpty, Bool.false_eq_true, if_false, hResults, deliver_eq _ _ hFault] at hRun
    rw [show o = _ from hRun]
    refine ⟨rfl, rfl, ?_⟩
    rw [Outcome.announced, List.filterMap_append, List.filterMap_append,
      filterMap_after?_of_log hSkips, filterMap_after?_of_log hLater, announced_updateReport]
    rfl

/-- An update in which a new text cannot be encoded ends with the error, and
announces nothing. The report is made of the results, and there are none. -/
theorem updateFound_of_not_isWritable (env : Environment) (call : UpdateCall)
    (hNodup : paths.Nodup) (hFound : ∀ p ∈ paths, IsFound d root p)
    (hj : j ∈ jobsFound b root paths) (h : ¬ j.IsWritable b.siblings d) :
    let o := updateFound env d { call with check := false } b root paths
    (∃ e, o.escaped = some (.update (.noBytes e))) ∧ o.announced (announcement false) = [] := by
  intro o
  have hJobs : ∀ j ∈ jobsFound b root paths, IsFound d root j.path := fun j hj =>
    hFound j.path (mem_jobsFound.1 hj).1
  obtain ⟨e, hResults⟩ := Batch.exists_collect_eq_noBytes (fun j hj => (hJobs j hj).named)
    (fun j hj => (hJobs j hj).isPathText) hj h
  -- there is a job at least, so that the run gets as far as collecting results
  have hEmpty : (jobsFound b root paths).isEmpty = false := by
    rw [List.isEmpty_eq_false_iff]
    exact List.ne_nil_of_mem hj
  obtain ⟨skips, later, hSkips, hLater, hRun⟩ :=
    updateFound_eq (b := b) env { call with check := false } (apart_jobsFound hNodup hFound)
  simp only [hEmpty, Bool.false_eq_true, if_false, Bool.not_false, hResults] at hRun
  rw [show o = _ from hRun]
  refine ⟨⟨e, rfl⟩, filterMap_after?_of_log ?_⟩
  exact List.forall_mem_append.2 ⟨hSkips, hLater⟩

end Command

end Lockstep
