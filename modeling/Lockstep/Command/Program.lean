import Lockstep.Batch
import Lockstep.Command.Call
import Lockstep.Log.Line
import Lockstep.Snapshot.Load
import Lockstep.Text.ControlSequence

/-!
# Lockstep — the program

A run of the program as a function of its arguments, the environment and the
disk: what it writes, the disk it leaves, and its exit code. How deep a snapshot may
be nested depends on the stack that is left to its reader; it is a parameter of a run.

The standard output takes no half of a surrogate pair. A text with one ends the run
when it is to be written; to the standard error the half goes as an escape by number.

* `workers` — how many lock files are updated at a time.
* `update` — brings all lock files below a directory into step, or tells which are not.
* `render` — writes one lock file as it would be in step, and changes nothing.
-/

namespace Lockstep

namespace Command

-- ---------------------------------------------------------------------------
-- Outcomes
-- ---------------------------------------------------------------------------

/-- Something that a run writes. -/
inductive Emission where
  | out (text : Text)
  | err (text : Text)
  | log (event : Event)
  deriving DecidableEq, Repr

/-- Why something cannot be written: it is for the standard output, if that is no
terminal, and has letters without bytes. -/
def Emission.fault? : Emission → Option Utf8.EncodeError
  | .out t =>
    match Utf8.encode t.withoutControls with
    | .error e => some e
    | .ok _ => none
  | _ => none

/-- An error that ends a run without being reported to the user. -/
inductive Escape where
  | snapshot (error : SnapshotError)
  | update (error : UpdateError)
  | path (error : FileError)
  /-- A text for the standard output has letters without bytes. -/
  | output (error : Utf8.EncodeError)
  deriving DecidableEq, Repr

/-- What is known about an error that is not reported. -/
def Escape.message : Escape → Text
  | .snapshot e => e.message
  | .update e => e.message
  | .path e => e.message
  | .output e => e.message

/-- What a run does, and what it leaves behind. -/
structure Outcome where
  code : Nat
  emitted : List Emission
  disk : Disk
  escaped : Option Escape := none
  settings : Log.Settings := {}

namespace Outcome

/-- All that goes to the standard output, if that is no terminal. -/
def stdout (o : Outcome) : Text :=
  o.emitted.flatMap fun
    | .out t => t.withoutControls
    | _ => []

/-- All that goes to the standard error, if that is no terminal; the lines of the
log, which keep what they hold, at some time included or not. -/
def stderr (o : Outcome) (time : Text) (withLog : Bool) : Text :=
  o.emitted.flatMap fun
    | .out _ => []
    | .err t => t.withoutControls.halvesEscaped
    | .log e =>
      if withLog then (Log.writeLog o.settings time [Log.Record.ofEvent e]).halvesEscaped else []

/-- A run that ends with an error reported to the user. -/
def failure (d : Disk) (message : Text) (before : List Emission := []) : Outcome :=
  ⟨1, before ++ [.err ("Error: ".text ++ message ++ [char '\n'])], d, none, {}⟩

/-- A run that ends with an error that is not reported. -/
def escape (d : Disk) (e : Escape) (before : List Emission := []) : Outcome :=
  ⟨1, before, d, some e, {}⟩

/-- A run that has done its work and writes what it has to tell. What cannot be
written ends it. -/
def deliver (code : Nat) (d : Disk) (emissions : List Emission) : Outcome :=
  match emissions.findSome? Emission.fault? with
  | none => ⟨code, emissions, d, none, {}⟩
  | some e => escape d (.output e) (emissions.takeWhile fun emission => emission.fault?.isNone)

/-- A run that ends before it has begun. -/
def refusal (d : Disk) : Refusal → Outcome
  | .usage s e => ⟨2, [.err (e.report s)], d, none, {}⟩
  | .help s => ⟨0, [.out s.help], d, none, {}⟩
  | .nothing => ⟨2, [.err Scope.program.help], d, none, {}⟩
  | .path e => escape d (.path e)

end Outcome

/-- A line of text. -/
def line (t : Text) : Text := t ++ [char '\n']

/-- The build of a snapshot file, or the end of the run. -/
def loadBuild (depth : Nat) (d : Disk) (snapshot : Text) : Except Outcome Build :=
  match Build.load depth d (Path.ofText snapshot) with
  | .ok b => .ok b
  | .error e =>
    .error (if e.isReported then Outcome.failure d e.message else Outcome.escape d (.snapshot e))

-- ---------------------------------------------------------------------------
-- The number of workers
-- ---------------------------------------------------------------------------

/-- The number of workers without any choice. -/
def usualWorkers : Nat := 4

/-- The number of workers that an environment chooses, and what is reported about it. -/
def workersOf (env : Environment) : Nat × List Event :=
  match env.get? "GRADLELOCK_JOBS" with
  | none => (usualWorkers, [])
  | some value =>
    match Text.toInteger? value with
    | none => (usualWorkers, [.badJobs value])
    | some n => ((max 1 n).toNat, [])

/-- The number of workers of a choice on the command line in an environment. -/
def workers (choice : Option Int) (env : Environment) : Nat × List Event :=
  match choice with
  | none => workersOf env
  | some n => if n = 0 then workersOf env else ((max 1 n).toNat, [])

-- ---------------------------------------------------------------------------
-- The update command
-- ---------------------------------------------------------------------------

/-- The lock file of a module of the build, or what is reported about one of no module. -/
def jobOf (b : Build) (root lock : Path) : Except Event Job :=
  match moduleOf root lock with
  | .error e => .error (.moduleSkipped lock.text e.message)
  | .ok path =>
    match b.project? path with
    | .error e => .error (.moduleSkipped lock.text e.message)
    | .ok p => .ok ⟨lock, p⟩

/-- The path of a lock file below the root, for the user. -/
def shownBelow (root p : Path) : Text :=
  match p.relativeTo? root with
  | some names => Text.joinWith [char '/'] names
  | none => p.text

/-- What is told about the results of an update. -/
def updateReport (root : Path) (check : Bool) (results : List FileResult) : List Emission :=
  let word := if check then "outdated" else "updated"
  let changed := results.filter (·.changed)
  let skipped := results.filter (·.skipped)
  changed.map (fun r => .out (line (word.text ++ ": ".text ++ shownBelow root r.path))) ++
    skipped.map (fun r => .err (line ("skipped (unreadable): ".text ++ shownBelow root r.path))) ++
    [.out (line s!"{changed.length} of {results.length} lock file(s) {word}.".text)]

/-- Brings the lock files that were found below a directory into step, or tells
which are not. -/
def updateFound (env : Environment) (d : Disk) (call : UpdateCall) (b : Build) (root : Path)
    (paths : List Path) : Outcome :=
  let found := paths.map (jobOf b root)
  let skips := found.filterMap fun
    | .error e => some (Emission.log e)
    | .ok _ => none
  let jobs := found.filterMap Except.toOption
  if jobs.isEmpty then
    Outcome.deliver 0 d (skips ++ [.out (line "No lock files to update.".text)])
  else
    let (_, workerEvents) := workers call.jobs env
    let batch := Batch.updateAll b.siblings (!call.check) jobs d
    let before := skips ++ workerEvents.map .log ++ batch.events.map .log
    match batch.results with
    | .error e => Outcome.escape batch.disk (.update e) before
    | .ok results =>
      let failed := call.check && results.any (·.changed)
      Outcome.deliver (if failed then 1 else 0) batch.disk
        (before ++ updateReport root call.check results)

/-- Brings all lock files below a directory into step, or tells which are not. -/
def update (depth : Nat) (env : Environment) (d : Disk) (call : UpdateCall) : Outcome :=
  match loadBuild depth d call.snapshot with
  | .error o => o
  | .ok b =>
    match d.absolute call.root with
    | .error _ => Outcome.refusal d (.usage .update (.badValue "'[ROOT]'" (.noDirectory call.root)))
    | .ok root =>
      match discover d root with
      | .error e => Outcome.escape d (.path e)
      | .ok paths => updateFound env d call b root paths

-- ---------------------------------------------------------------------------
-- The render command
-- ---------------------------------------------------------------------------

/-- The module path that a rendering is about: the one given, or that of the lock
file's directory relative to the working directory. -/
def renderModule (d : Disk) (call : RenderCall) (lock : Path) : Except Text Text :=
  match call.module with
  | some t => .ok (ModulePath.ofArgument t)
  | none =>
    match moduleOf d.workingPath lock with
    | .ok path => .ok (ModulePath.ofArgument path)
    | .error _ => .error (call.lockFile ++ " is outside the current directory; pass --module".text)

/-- Writes one lock file as it would be in step. -/
def render (depth : Nat) (d : Disk) (call : RenderCall) : Outcome :=
  match loadBuild depth d call.snapshot with
  | .error o => o
  | .ok b =>
    match d.absolute call.lockFile with
    | .error _ => Outcome.refusal d (.usage .render (.badValue "'LOCKFILE'" (.noFile call.lockFile)))
    | .ok lock =>
      match renderModule d call lock with
      | .error message => Outcome.failure d message
      | .ok path =>
        match b.project? path with
        | .error e => Outcome.failure d e.message
        | .ok p =>
          match LockFile.load d lock with
          | .error e =>
            if e.isReported then Outcome.failure d e.message
            else Outcome.escape d (.update (.unreadable e))
          | .ok text =>
            let events := (LockFile.updateEvents text p b.siblings).map Emission.log
            match LockFile.revise text p b.siblings with
            | .error e => Outcome.escape d (.update (.unwritable e)) events
            | .ok r => Outcome.deliver 0 d (events ++ [.out r.text])

-- ---------------------------------------------------------------------------
-- The program
-- ---------------------------------------------------------------------------

/-- A command of the program. -/
def runCommand (depth : Nat) (env : Environment) (d : Disk) (call : ProgramCall) : Outcome :=
  if call.command = "update".text then
    match UpdateCall.read d call.args with
    | .error r => Outcome.refusal d r
    | .ok c => update depth env d c
  else
    match RenderCall.read d call.args with
    | .error r => Outcome.refusal d r
    | .ok c => render depth d c

/-- A run of the program. -/
def run (depth : Nat) (env : Environment) (d : Disk) (args : List Text) : Outcome :=
  match ProgramCall.read args with
  | .error r => Outcome.refusal d r
  | .ok call =>
    let level := if call.verbose then some "DEBUG".text else none
    { runCommand depth env d call with settings := Log.Settings.resolve level call.format env }

end Command

end Lockstep
