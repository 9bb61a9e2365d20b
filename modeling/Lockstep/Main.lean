import Lockstep.Command.Program
import Std.Time.Format

/-!
# Lockstep — the executable

Brings the part of the file system that the arguments speak of into a `Disk`,
runs the program on it, writes the files that changed, and passes on what the
run says. All decisions are taken by `Command.run`.

* `loadDisk` — the working directory, the paths among the arguments, and the lock files below them.
* `perform`  — the effects of an outcome.
-/

namespace Lockstep

namespace Executable

-- ---------------------------------------------------------------------------
-- Loading
-- ---------------------------------------------------------------------------

/-- The string of a text; halves of a surrogate pair, which a string cannot hold,
are replaced. -/
def stringOf (t : Text) : String :=
  String.ofList (t.map fun
    | .char c => c
    | .half _ => '\ufffd')

/-- The file system's path of a place. -/
def pathOf (place : List Text) : String :=
  stringOf (char '/' :: Text.joinWith [char '/'] place)

/-- How deep a snapshot may be nested: the stack's limit, less what the command
line has on it. -/
def nestingLimit : Nat := 987

/-- The bytes of the file at a place. -/
def bytesAt (place : List Text) : IO (List UInt8) :=
  return (← IO.FS.readBinFile (pathOf place)).toList

/-- What kind of file stands at a place. -/
def kindAt? (place : List Text) : IO (Option IO.FS.FileType) := do
  let root ← IO.currentDir
  try
    return some (← (root / pathOf place).metadata).type
  catch _ =>
    return none

/-- What a directory holds; nothing if it cannot be read. -/
def entriesAt (place : List Text) : IO (Array IO.FS.DirEntry) := do
  let root ← IO.currentDir
  try
    (root / pathOf place).readDir
  catch _ =>
    return #[]

/-- Adds the file at a place. -/
def addFileAt (d : Disk) (place : List Text) : IO Disk :=
  return d.addFile place (← bytesAt place)

/-- Adds the lock files below a directory. -/
partial def addLockFiles (d : Disk) (place : List Text) : IO Disk := do
  let mut d := d
  for entry in ← entriesAt place do
    let name := entry.fileName.text
    let here := place ++ [name]
    match (← entry.path.symlinkMetadata).type with
    | .dir => if name ∉ skippedFolders then d ← addLockFiles d here
    | _ =>
      if name == lockFileName && (← kindAt? here) == some .file then
        d ← addFileAt d here
  return d

/-- Adds what the rest of a path leads to from a place, as far as it exists. -/
def addPath (d : Disk) (below : Bool) (place : List Text) : List Text → IO Disk
  | [] => if below then addLockFiles d place else pure d
  | name :: rest => do
    if name.isEmpty || name = [char '.'] then addPath d below place rest
    else if name = [char '.', char '.'] then addPath d below place.dropLast rest
    else
      let here := place ++ [name]
      match ← kindAt? here with
      | some .dir => addPath (d.addFolder here) below here rest
      | some _ => addFileAt d here
      | none => return d

/-- The working directory, the paths among the arguments, and the lock files below them. -/
def loadDisk (args : List Text) : IO Disk := do
  let cwd := (← IO.currentDir).toString.text
  let working := (Path.ofText cwd).parts
  let below := args.contains "update".text
  let mut d ← addPath { working := working } below [] working
  for arg in args do
    d ← addPath d below (if arg.head? = some (char '/') then [] else working) (arg.splitOn (char '/'))
  return d

/-- The variables of the environment that the program looks at. -/
def loadEnvironment : IO Environment :=
  ["GRADLELOCK_JOBS", "GRADLELOCK_LOG_LEVEL", "GRADLELOCK_LOG_FORMAT"].filterMapM fun name => do
    return (← IO.getEnv name).map fun value => (name.text, value.text)

-- ---------------------------------------------------------------------------
-- Effects
-- ---------------------------------------------------------------------------

/-- The present time, for the log. -/
def now : IO Text := do
  let time := Std.Time.DateTime.ofTimestamp (← Std.Time.Timestamp.now) Std.Time.TimeZone.ZoneRules.UTC
  return (time.format "uuuu-MM-dd'T'HH:mm:ss.SSSSSS'Z'").text

/-- Writes a text; control sequences are for terminals only. -/
def say (stream : IO.FS.Stream) (t : Text) : IO Unit := do
  stream.putStr (stringOf (if ← stream.isTty then t else t.withoutControls))

/-- Writes one of the things that a run says. -/
def emit (settings : Log.Settings) : Command.Emission → IO Unit
  | .out t => do say (← IO.getStdout) t
  | .err t => do say (← IO.getStderr) t.halvesEscaped
  | .log e => do IO.eprint (stringOf (Log.writeLog settings (← now) [Log.Record.ofEvent e]).halvesEscaped)

/-- Carries out an outcome of a run on a disk. -/
def perform (before : Disk) (o : Command.Outcome) : IO UInt32 := do
  for (place, content) in before.root.changesSince o.disk.root do
    IO.FS.writeBinFile (pathOf place) (ByteArray.mk content.toArray)
  o.emitted.forM (emit o.settings)
  if let some e := o.escaped then IO.eprintln (stringOf e.message.halvesEscaped)
  return o.code.toUInt32

end Executable

end Lockstep

/-- Runs the program on its arguments. -/
def main (args : List String) : IO UInt32 := do
  let args := args.map String.text
  let disk ← Lockstep.Executable.loadDisk args
  let env ← Lockstep.Executable.loadEnvironment
  Lockstep.Executable.perform disk (Lockstep.Command.run Lockstep.Executable.nestingLimit env disk args)
