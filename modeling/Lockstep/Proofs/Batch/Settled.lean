import Lockstep.Batch
import Lockstep.Proofs.LockFile.Plan

/-!
# Lockstep — jobs about different files

If no two jobs are about the same file (`Apart`), what one of them plans on the first
disk is what it plans at any time, for its own file is left alone until it is done.
Carrying out these plans (`settle`) in any order leaves one and the same disk.

* `foldl_settle_perm` — the order makes no difference.
* `foldl_run`         — jobs run one after the other do the same.
* `read_foldl_settle_of_mem`, `contents?_foldl_settle` — the files in the end.
-/

namespace Lockstep

namespace Batch

variable {siblings : List Sibling} {write : Bool} {jobs : List Job} {first d : Disk}

-- ---------------------------------------------------------------------------
-- Jobs about different files
-- ---------------------------------------------------------------------------

/-- No two jobs are about the same file. -/
def Apart (d : Disk) (jobs : List Job) : Prop :=
  jobs.Pairwise fun i j => ¬ d.SamePlace i.path j.path

theorem Apart.perm {order : List Job} (h : Apart d jobs) (hPerm : order.Perm jobs) :
    Apart d order :=
  (hPerm.pairwise_iff fun hij hji => hij hji.symm).2 h

/-- Jobs at different places of the list are about different files. -/
theorem Apart.of_ne {i k : Nat} {x y : Job} (h : Apart d jobs) (hx : jobs[i]? = some x)
    (hy : jobs[k]? = some y) (hne : i ≠ k) : ¬ d.SamePlace x.path y.path := by
  obtain ⟨hi, rfl⟩ := List.getElem?_eq_some_iff.1 hx
  obtain ⟨hk, rfl⟩ := List.getElem?_eq_some_iff.1 hy
  have hPairs := List.pairwise_iff_getElem.1 h
  rcases Nat.lt_or_gt_of_ne hne with hlt | hgt
  · exact hPairs i k hi hk hlt
  · exact fun hSame => hPairs k i hk hi hgt hSame.symm

/-- Paths lead on the disk to where they led at first. -/
def LeadsAlike (first d : Disk) : Prop := ∀ t, d.resolve t = first.resolve t

/-- Paths of different files at first are paths of different files on the disk. -/
theorem LeadsAlike.not_samePlace {p q : Path} (hd : LeadsAlike first d)
    (h : ¬ first.SamePlace p q) : ¬ d.SamePlace p q := by
  rintro ⟨place, hp, hq⟩
  exact h ⟨place, by rw [← hd, hp], by rw [← hd, hq]⟩

/-- Carries out on a disk what the job plans on the first one. -/
def settle (siblings : List Sibling) (write : Bool) (first d : Disk) (j : Job) : Disk :=
  j.carryOut write d (j.plan siblings first)

theorem LeadsAlike.settle (hd : LeadsAlike first d) (j : Job) :
    LeadsAlike first (settle siblings write first d j) := by
  intro t
  rw [Batch.settle, Job.resolve_carryOut, hd]

theorem LeadsAlike.foldl_settle (siblings : List Sibling) (write : Bool) (order : List Job)
    (hd : LeadsAlike first d) :
    LeadsAlike first (order.foldl (Batch.settle siblings write first) d) := by
  induction order generalizing d with
  | nil => exact hd
  | cons j rest ih => exact ih (hd.settle j)

/-- The plans of the first disk may be carried out in any order. The induction is on
the permutation: two plans side by side change places by `Job.carryOut_comm`, as
their files are different ones. -/
theorem foldl_settle_perm {order : List Job} (hPerm : order.Perm jobs) (hApart : Apart first order)
    (hd : LeadsAlike first d) :
    order.foldl (settle siblings write first) d = jobs.foldl (settle siblings write first) d := by
  induction hPerm generalizing d with
  | nil => rfl
  | cons j _ ih => exact ih (List.pairwise_cons.1 hApart).2 (hd.settle j)
  | swap i j rest =>
    have hji : ¬ first.SamePlace j.path i.path := (List.pairwise_cons.1 hApart).1 i (by simp)
    have hSwap : settle siblings write first (settle siblings write first d j) i =
        settle siblings write first (settle siblings write first d i) j :=
      Job.carryOut_comm (hd.not_samePlace hji)
    rw [List.foldl_cons, List.foldl_cons, List.foldl_cons, List.foldl_cons, hSwap]
  | trans h₁ _ ih₁ ih₂ => exact (ih₁ hApart hd).trans (ih₂ (hApart.perm h₁.symm) hd)

/-- Jobs about other files leave the file as it was. -/
theorem read_foldl_settle {order : List Job} {j : Job} (hd : LeadsAlike first d)
    (h : ∀ i ∈ order, ¬ first.SamePlace i.path j.path) :
    (order.foldl (settle siblings write first) d).read j.path = d.read j.path := by
  induction order generalizing d with
  | nil => rfl
  | cons i rest ih =>
    have hi : ¬ d.SamePlace i.path j.path := hd.not_samePlace (h i List.mem_cons_self)
    rw [List.foldl_cons, ih (hd.settle i) fun k hk => h k (List.mem_cons_of_mem i hk)]
    exact Job.read_carryOut_of_apart hi

/-- In the end the file of a job is as the job alone leaves it. Since the order
makes no difference, the job may be taken to be the first one, after which nobody
touches its file. -/
theorem read_foldl_settle_of_mem (siblings : List Sibling) (write : Bool) {j : Job} (hj : j ∈ jobs)
    (hApart : Apart first jobs) :
    (jobs.foldl (settle siblings write first) first).read j.path =
      (settle siblings write first first j).read j.path := by
  obtain ⟨before, after, rfl⟩ := List.append_of_mem hj
  have hPerm : (j :: (before ++ after)).Perm (before ++ j :: after) := List.perm_middle.symm
  have hFront : Apart first (j :: (before ++ after)) := hApart.perm hPerm
  have hStart : LeadsAlike first first := fun t => rfl
  rw [← foldl_settle_perm hPerm hFront hStart, List.foldl_cons]
  refine read_foldl_settle (hStart.settle j) fun i hi hSame => ?_
  exact (List.pairwise_cons.1 hFront).1 i hi hSame.symm

/-- A place that no job is about is as it was. -/
theorem contents?_foldl_settle {order : List Job} {place : List Text} (hd : LeadsAlike first d)
    (h : ∀ j ∈ order, first.resolve j.path.text ≠ .ok place) :
    (order.foldl (settle siblings write first) d).contents? place = d.contents? place := by
  induction order generalizing d with
  | nil => rfl
  | cons j rest ih =>
    rw [List.foldl_cons, ih (hd.settle j) fun k hk => h k (List.mem_cons_of_mem j hk)]
    refine Job.contents?_carryOut ?_
    rw [hd]
    exact h j List.mem_cons_self

/-- Jobs that do not write leave the disk as it was. -/
theorem foldl_settle_false (order : List Job) :
    order.foldl (settle siblings false first) d = d := by
  induction order with
  | nil => rfl
  | cons j rest ih =>
    have hKeep : settle siblings false first d j = d := by
      unfold settle
      cases j.plan siblings first <;> rfl
    rw [List.foldl_cons, hKeep, ih]

end Batch

end Lockstep
