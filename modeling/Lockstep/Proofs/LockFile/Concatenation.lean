import Lockstep.Proofs.LockFile.Kinds

/-!
# Lockstep — texts one after the other

Reading knows nothing but lines, and the lines of two texts with a line feed
between them are those of the one and then those of the other
(`linesOf_append`), whatever stands where they meet. Lock files can therefore
be merged as texts.

* `locked_parse_append` — the second text adds its entries to the table of the first.
* `droppedLines_append` — its dropped lines are reported further down.
* `parse_append` — each part of the lock file that both texts make.
-/

namespace Lockstep

/-- The event when the lines that it can be about stand further down. -/
def Event.moveDown (lines : Nat) : Event → Event
  | .lineDropped number reason => .lineDropped (number + lines) reason
  | e => e

namespace LockFile

/-- The lines of two texts with a line feed between them are the lines of the one
and then those of the other. A carriage return before the line feed is taken off as
at the end of any line. -/
theorem linesOf_append (a b : Text) : linesOf (a ++ char '\n' :: b) = linesOf a ++ linesOf b := by
  rw [linesOf, Text.splitOn_append, List.map_append, linesOf, linesOf]

theorem length_linesOf (a : Text) : (linesOf a).length = (a.splitOn (char '\n')).length :=
  List.length_map _

/-- What the lines are read as does not depend on the lines before them. -/
theorem readLines_append (a b : Text) : readLines (a ++ char '\n' :: b) = readLines a ++ readLines b := by
  rw [readLines, linesOf_append, List.map_append, readLines, readLines]

theorem comments_parse_append (a b : Text) :
    (parse (a ++ char '\n' :: b)).comments = (parse a).comments ++ (parse b).comments := by
  rw [comments_parse, comments_parse, comments_parse, readLines_append, List.filterMap_append]

theorem empty_parse_append (a b : Text) :
    (parse (a ++ char '\n' :: b)).lock.empty = (parse a).lock.empty ∪ (parse b).lock.empty := by
  apply NameSet.ext
  intro n
  rw [NameSet.mem_union, mem_empty_parse, mem_empty_parse, mem_empty_parse, readLines_append]
  simp only [List.mem_append, or_and_right, exists_or]

-- ---------------------------------------------------------------------------
-- The table
-- ---------------------------------------------------------------------------

/-- The second text is read into the table of the first. -/
theorem locked_parse_append (a b : Text) :
    (parse (a ++ char '\n' :: b)).lock.locked =
      (parse a).lock.locked.addEntries ((readLines b).filterMap Line.entry?) := by
  rw [locked_parse, readLines_append, List.filterMap_append, LockTable.addEntries_append,
    ← locked_parse]

/-- The names of a coordinate are those that either text gives it. -/
theorem get_parse_append (a b : Text) (c : Coordinate) :
    (parse (a ++ char '\n' :: b)).lock.locked.get c =
      (parse a).lock.locked.get c ∪ (parse b).lock.locked.get c := by
  apply NameSet.ext
  intro n
  have hAdded : n ∈ (parse b).lock.locked.get c ↔
      ∃ e ∈ (readLines b).filterMap Line.entry?, e.1 = c ∧ n ∈ e.2 := by
    rw [locked_parse, LockTable.mem_get_addEntries]
    exact or_iff_right (NameSet.not_mem_empty n)
  rw [NameSet.mem_union, locked_parse_append, LockTable.mem_get_addEntries, hAdded]

/-- Coordinates of the second text keep their order, but for those that have their
place already. -/
theorem keys_parse_append (a b : Text) :
    (parse (a ++ char '\n' :: b)).lock.locked.keys =
      (parse a).lock.locked.keys ++
        (parse b).lock.locked.keys.filter fun c => c ∉ (parse a).lock.locked.keys := by
  rw [locked_parse_append, LockTable.keys_addEntries, keys_parse b, ← filter_eraseDups,
    List.removeAll]
  congr 3
  funext c
  rw [List.elem_eq_mem, decide_not]

theorem tracked_parse_append (a b : Text) :
    (parse (a ++ char '\n' :: b)).lock.tracked = (parse a).lock.tracked ∪ (parse b).lock.tracked := by
  apply NameSet.ext
  intro n
  simp only [NameSet.mem_union, Lock.mem_tracked, empty_parse_append, get_parse_append, exists_or]
  exact or_or_or_comm

-- ---------------------------------------------------------------------------
-- The report
-- ---------------------------------------------------------------------------

/-- The lines that are dropped are those of either text, those of the second one
with numbers that go on from the lines of the first. -/
theorem droppedLines_append (a b : Text) :
    droppedLines (a ++ char '\n' :: b) =
      droppedLines a ++ (droppedLines b).map fun l => (l.1 + (a.splitOn (char '\n')).length, l.2) := by
  have hDown : (linesOf b).zipIdx (1 + (linesOf a).length) =
      ((linesOf b).zipIdx 1).map (Prod.map id (· + (a.splitOn (char '\n')).length)) := by
    rw [List.map_snd_add_zipIdx_eq_zipIdx, Nat.add_comm, length_linesOf]
  rw [droppedLines, linesOf_append, List.zipIdx_append, List.filterMap_append, hDown,
    List.filterMap_map, droppedLines, droppedLines, List.map_filterMap]
  congr 2
  funext l
  rw [Option.map_map]
  rfl

/-- What is reported about dropped lines is reported in the same order. -/
theorem dropEvents_append (a b : Text) :
    dropEvents (a ++ char '\n' :: b) =
      dropEvents a ++ (dropEvents b).map (Event.moveDown (a.splitOn (char '\n')).length) := by
  rw [dropEvents, droppedLines_append, List.map_append, List.map_map, dropEvents, dropEvents,
    List.map_map]
  rfl

/--
**Reading goes on after a line feed.** What is read from two texts with a line feed between
them is what is read from each: the comments of the second follow those of the first, the
names with nothing to lock and the names of each coordinate are put together, the new
coordinates follow the known ones, and what is reported about the second text is reported
with the numbers that its lines have now.
-/
theorem parse_append (a b : Text) :
    (parse (a ++ char '\n' :: b)).comments = (parse a).comments ++ (parse b).comments ∧
    (parse (a ++ char '\n' :: b)).lock.empty = (parse a).lock.empty ∪ (parse b).lock.empty ∧
    (∀ c, (parse (a ++ char '\n' :: b)).lock.locked.get c =
      (parse a).lock.locked.get c ∪ (parse b).lock.locked.get c) ∧
    (parse (a ++ char '\n' :: b)).lock.locked.keys =
      (parse a).lock.locked.keys ++
        (parse b).lock.locked.keys.filter (fun c => c ∉ (parse a).lock.locked.keys) ∧
    (parse (a ++ char '\n' :: b)).lock.tracked = (parse a).lock.tracked ∪ (parse b).lock.tracked ∧
    dropEvents (a ++ char '\n' :: b) =
      dropEvents a ++ (dropEvents b).map (Event.moveDown (a.splitOn (char '\n')).length) :=
  ⟨comments_parse_append a b, empty_parse_append a b, get_parse_append a b, keys_parse_append a b,
    tracked_parse_append a b, dropEvents_append a b⟩

end LockFile

end Lockstep
