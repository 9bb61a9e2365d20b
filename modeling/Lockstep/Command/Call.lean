import Lockstep.Command.Usage
import Lockstep.Files.Disk
import Lockstep.Log.Settings
import Lockstep.Text.Integer

/-!
# Lockstep — calls of the program

What a list of arguments asks for, once it is understood. Reading goes in the
order in which mistakes are reported: first the options themselves, then a wish
for help, the values of the options in the order given, the operands in theirs,
and last operands too many.

* `ProgramCall.read` — the options of the program, and the command with its own arguments.
* `UpdateCall.read`, `RenderCall.read` — the arguments of the two commands.
-/

namespace Lockstep

namespace Command

/-- Why a call is not carried out. -/
inductive Refusal where
  | usage (scope : Scope) (error : UsageError)
  /-- Help was asked for. -/
  | help (scope : Scope)
  /-- Nothing was asked for. -/
  | nothing
  /-- A path that the file system does not take ends the run. -/
  | path (error : FileError)
  deriving DecidableEq, Repr

-- ---------------------------------------------------------------------------
-- Values of parameters
-- ---------------------------------------------------------------------------

/-- What is wrong with a path that leads nowhere, if what does not exist is reported so. -/
def pathError (t : Text) (missing : ValueError) (fault : PathFault) : ValueError :=
  if fault.isReported then missing else .unusable ⟨fault, t⟩

/-- A path that must lead to a file. -/
def existingFile (d : Disk) (t : Text) : Except ValueError Text :=
  match d.entry t with
  | .error fault => .error (pathError t (.noFile t) fault)
  | .ok (.folder _) => .error (.fileIsDirectory t)
  | .ok (.file _) => .ok t

/-- A path that must lead to a directory. -/
def existingDirectory (d : Disk) (t : Text) : Except ValueError Text :=
  match d.entry t with
  | .error fault => .error (pathError t (.noDirectory t) fault)
  | .ok (.folder _) => .ok t
  | .ok (.file _) => .error (.directoryIsFile t)

/-- A whole number. -/
def wholeNumber (t : Text) : Except ValueError Int :=
  match Text.toInteger? t with
  | some n => .ok n
  | none => .error (.notInteger t)

/-- The choices for the format of the log. -/
def formatChoices : List Text := ["console".text, "json".text]

/-- One of the choices for the format of the log, exactly as it is spelled. -/
def formatChoice (t : Text) : Except ValueError Text :=
  if formatChoices.contains t then .ok t else .error (.noChoice t formatChoices)

/-- The value of a parameter, or the refusal of the call. -/
def orRefuse {α : Type} (s : Scope) (parameter : String) (r : Except ValueError α) :
    Except Refusal α :=
  r.mapError fun
    | .unusable e => .path e
    | e => .usage s (.badValue parameter e)

/-- An operand that must be there. -/
def operand (s : Scope) (name : String) : Option Text → Except Refusal Text
  | some t => .ok t
  | none => .error (.usage s (.missingArgument name.text))

/-- Refuses operands that no parameter takes. -/
def noMore (s : Scope) (args : List Text) : Except Refusal Unit :=
  if args.isEmpty then .ok () else .error (.usage s (.extraArguments args))

/-- The value with which an option was given last. -/
def lastValue {κ : Type} [BEq κ] (given : List (Given κ)) (key : κ) : Option Text :=
  (given.reverse.find? fun g => g.1 == key).bind (·.2)

/-- Whether an option was given. -/
def isGiven {κ : Type} [BEq κ] (given : List (Given κ)) (key : κ) : Bool :=
  given.any fun g => g.1 == key

/-- The arguments of a scope, unless they are not understood or ask for help. -/
def readScope {κ : Type} [BEq κ] (s : Scope) (specs : List (OptionSpec κ)) (help : κ) (mixed : Bool)
    (args : List Text) : Except Refusal (List (Given κ) × List Text) :=
  match readArguments specs mixed args with
  | .error e => .error (.usage s (.argument e))
  | .ok (given, operands) => if isGiven given help then .error (.help s) else .ok (given, operands)

-- ---------------------------------------------------------------------------
-- The program
-- ---------------------------------------------------------------------------

/-- The options of the program. -/
inductive ProgramOption where
  | verbose
  | logFormat
  | help
  deriving DecidableEq

/-- How the options of the program are given. -/
def programOptions : List (OptionSpec ProgramOption) :=
  [⟨.verbose, some (char 'v'), "--verbose".text, false⟩, ⟨.logFormat, none, "--log-format".text, true⟩,
    ⟨.help, none, "--help".text, false⟩]

/-- The names of the commands. -/
def commandNames : List Text := ["render".text, "update".text]

/-- A command, and whether and how the log is written. -/
structure ProgramCall where
  verbose : Bool
  format : Option Text
  command : Text
  args : List Text
  deriving DecidableEq, Repr

/-- The options of the program, the format of the log that they choose, and what
comes after them. -/
def readProgramOptions (args : List Text) :
    Except Refusal (List (Given ProgramOption) × Option Text × List Text) := do
  let (given, operands) ← readScope .program programOptions .help false args
  match lastValue given .logFormat with
  | none => return (given, none, operands)
  | some t =>
    let format ← orRefuse .program "'--log-format'" (formatChoice t)
    return (given, some format, operands)

/-- What the arguments of the program ask for. -/
def ProgramCall.read (args : List Text) : Except Refusal ProgramCall := do
  if args.isEmpty then throw .nothing
  let (given, format, operands) ← readProgramOptions args
  match operands with
  | [] => throw (.usage .program .missingCommand)
  | command :: rest =>
    if commandNames.contains command then
      return ⟨isGiven given .verbose, format, command, rest⟩
    else
      -- what starts like an option is read as one, even after the end of the options
      let _ ← readProgramOptions operands
      throw (.usage .program (.unknownCommand command (Text.similarTo command commandNames)))

-- ---------------------------------------------------------------------------
-- The update command
-- ---------------------------------------------------------------------------

/-- The options of the update command. -/
inductive UpdateOption where
  | check
  | jobs
  | help
  deriving DecidableEq

/-- How the options of the update command are given. -/
def updateOptions : List (OptionSpec UpdateOption) :=
  [⟨.check, none, "--check".text, false⟩, ⟨.jobs, some (char 'j'), "--jobs".text, true⟩,
    ⟨.help, none, "--help".text, false⟩]

/-- What an update is asked to do. -/
structure UpdateCall where
  snapshot : Text
  root : Text
  check : Bool
  jobs : Option Int
  deriving DecidableEq, Repr

/-- What the arguments of the update command ask for. -/
def UpdateCall.read (d : Disk) (args : List Text) : Except Refusal UpdateCall := do
  let (given, operands) ← readScope .update updateOptions .help true args
  let jobs ←
    match lastValue given .jobs with
    | none => pure none
    | some t => (orRefuse .update "'-j' / '--jobs'" (wholeNumber t)).map some
  let snapshot ← operand .update "SNAPSHOT" operands[0]?
  let snapshot ← orRefuse .update "'SNAPSHOT'" (existingFile d snapshot)
  let root ← orRefuse .update "'[ROOT]'" (existingDirectory d (operands[1]?.getD [char '.']))
  noMore .update (operands.drop 2)
  return ⟨snapshot, root, isGiven given .check, jobs⟩

-- ---------------------------------------------------------------------------
-- The render command
-- ---------------------------------------------------------------------------

/-- The options of the render command. -/
inductive RenderOption where
  | module
  | help
  deriving DecidableEq

/-- How the options of the render command are given. -/
def renderOptions : List (OptionSpec RenderOption) :=
  [⟨.module, none, "--module".text, true⟩, ⟨.help, none, "--help".text, false⟩]

/-- What a rendering is asked to do. -/
structure RenderCall where
  snapshot : Text
  lockFile : Text
  module : Option Text
  deriving DecidableEq, Repr

/-- What the arguments of the render command ask for. -/
def RenderCall.read (d : Disk) (args : List Text) : Except Refusal RenderCall := do
  let (given, operands) ← readScope .render renderOptions .help true args
  let snapshot ← operand .render "SNAPSHOT" operands[0]?
  let snapshot ← orRefuse .render "'SNAPSHOT'" (existingFile d snapshot)
  let lockFile ← operand .render "LOCKFILE" operands[1]?
  let lockFile ← orRefuse .render "'LOCKFILE'" (existingFile d lockFile)
  noMore .render (operands.drop 2)
  return ⟨snapshot, lockFile, lastValue given .module⟩

end Command

end Lockstep
