import Lockstep.Proofs.LockFile.Idempotent

/-!
# Lockstep — an update always has an answer

Writing fails on an entry whose only name is empty, and nothing that is said about
a project excludes an empty name. An update is safe all the same: what is read from
a text are names, and a project brings no name into a lock that the lock does not
know already (`isName_of_mem_tracked_reconcile`).

* `getLast?_revised_iff` — the new text ends in a line feed iff the old one does.
* `update_answers`       — every line is written, and every update has an answer.
-/

namespace Lockstep

namespace LockFile

variable {p : Project} {siblings : List Sibling} {text : Text}

/-- The last line holds names that were read, so that no line feed of a project gets there. -/
theorem newline_not_mem_emptyLine_reconcile :
    char '\n' ∉ emptyLine ((parse text).reconcile p siblings).lock.empty.toList := by
  have hNames : ∀ n ∈ ((parse text).reconcile p siblings).lock.empty, char '\n' ∉ n := fun n hn =>
    (isName_of_mem_tracked_reconcile (Lock.mem_tracked.2 (Or.inl hn))).no_newline
  rw [emptyLine, List.mem_append, List.mem_cons, not_or, not_or]
  exact ⟨by decide, by decide, not_mem_joinNames (by decide) hNames⟩

/-- The new text ends in a line feed if and only if the old one does. The last line
is never empty, so that its own end cannot be taken for a line feed of the text. -/
theorem getLast?_revised_iff :
    (revised text p siblings).getLast? = some (char '\n') ↔ text.getLast? = some (char '\n') :=
  getLast?_written_iff newline_not_mem_emptyLine_reconcile

/--
**An update always has an answer.** Whatever the text, the project and the siblings
are, no name of the reconciled lock file is empty, so that each of its lines is
written; the update reports no change or gives a new text, which ends in a line feed
iff the old one does.
-/
theorem update_answers (text : Text) (p : Project) (siblings : List Sibling) :
    (∀ n ∈ ((parse text).reconcile p siblings).lock.tracked, n ≠ []) ∧
    (∀ line ∈ ((parse text).reconcile p siblings).lines, line ≠ none) ∧
    (update text p siblings = .ok none ∨
      ∃ new, update text p siblings = .ok (some new) ∧
        (new.getLast? = some (char '\n') ↔ text.getLast? = some (char '\n'))) := by
  refine ⟨fun n hn => (isName_of_mem_tracked_reconcile hn).ne_nil, fun line hLine => ?_, ?_⟩
  · -- no recorded name is empty, so that every entry has a line
    rw [lines_eq fun e he => ne_nil_of_mem_entries_reconcile he] at hLine
    obtain ⟨written, -, rfl⟩ := List.mem_map.1 hLine
    exact Option.some_ne_none written
  · obtain ⟨answer, hAnswer⟩ := exists_update_eq_ok text p siblings
    cases answer with
    | none => exact Or.inl hAnswer
    | some new =>
      -- a new text is the revised one, of which the last line feed is known
      obtain rfl : new = revised text p siblings := eq_written_of_update_eq_some hAnswer
      exact Or.inr ⟨_, hAnswer, getLast?_revised_iff⟩

end LockFile

end Lockstep
