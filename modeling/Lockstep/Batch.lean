import Lockstep.LockFile.OnDisk

/-!
# Lockstep — batches

Several lock files are updated at a time. Each job has its two steps, and the
steps of different jobs may come in any order: a schedule is the list of the jobs
whose turn it is. What a step finds on the disk depends on the steps before it;
what a job answers depends on its own reading alone.

* `advance`    — one step of one job.
* `runSchedule` — all steps of a schedule.
* `sequential` — the schedule of one job after the other.
* `updateAll`  — the results of a batch, in the order of its jobs.
-/

namespace Lockstep

namespace Batch

/-- How far a job has come. -/
inductive Progress where
  | waiting
  | planned (plan : Plan)
  | done (plan : Plan)
  deriving DecidableEq, Repr, Inhabited

/-- The plan of a job that is done. -/
def Progress.finished? : Progress → Option Plan
  | .done plan => some plan
  | _ => none

/-- The disk, and how far each job has come. -/
structure State where
  disk : Disk
  progress : List Progress
  deriving DecidableEq, Repr

/-- The state before the first step. -/
def start (jobs : List Job) (d : Disk) : State := ⟨d, jobs.map fun _ => .waiting⟩

/-- The next step of one job: it reads, then it carries out what it planned. -/
def advance (siblings : List Sibling) (write : Bool) (jobs : List Job) (s : State) (i : Nat) : State :=
  match jobs[i]?, s.progress[i]? with
  | some j, some .waiting => { s with progress := s.progress.set i (.planned (j.plan siblings s.disk)) }
  | some j, some (.planned plan) =>
    ⟨j.carryOut write s.disk plan, s.progress.set i (.done plan)⟩
  | _, _ => s

/-- The state after the steps of a schedule. -/
def runSchedule (siblings : List Sibling) (write : Bool) (jobs : List Job) (s : State)
    (schedule : List Nat) : State :=
  schedule.foldl (advance siblings write jobs) s

/-- One job after the other, each with both of its steps. -/
def sequential (count : Nat) : List Nat := (List.range count).flatMap fun i => [i, i]

/-- What each finished job answers, in the order of the jobs. -/
def answers (write : Bool) (jobs : List Job) (s : State) : List (Except UpdateError FileResult) :=
  (jobs.zip s.progress).filterMap fun (j, p) => p.finished?.map (j.result write)

/-- What is reported about each finished job, in the order of the jobs. -/
def events (siblings : List Sibling) (write : Bool) (jobs : List Job) (s : State) : List Event :=
  (jobs.zip s.progress).flatMap fun (j, p) =>
    match p.finished? with
    | some plan => j.events siblings write plan
    | none => []

/-- All results, or the first error in the order of the jobs. -/
def collect : List (Except UpdateError FileResult) → Except UpdateError (List FileResult)
  | [] => .ok []
  | .error e :: _ => .error e
  | .ok r :: rest => (collect rest).map (r :: ·)

/-- What a batch leaves behind. -/
structure Outcome where
  results : Except UpdateError (List FileResult)
  disk : Disk
  events : List Event

/-- The results of a batch, one job after the other. -/
def updateAll (siblings : List Sibling) (write : Bool) (jobs : List Job) (d : Disk) : Outcome :=
  let s := runSchedule siblings write jobs (start jobs d) (sequential jobs.length)
  ⟨collect (answers write jobs s), s.disk, events siblings write jobs s⟩

end Batch

end Lockstep
