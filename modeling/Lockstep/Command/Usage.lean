import Lockstep.Command.Arguments
import Lockstep.Files.Disk

/-!
# Lockstep — help and usage

The texts that tell how the program is called, and the messages about a call
that is not understood. A message about a call comes after the usage of the
command, except when an option lacks its value or is given one.
-/

namespace Lockstep

namespace Command

/-- A part of the program with a usage of its own. -/
inductive Scope where
  | program
  | update
  | render
  deriving DecidableEq, Repr

/-- The words by which a scope is called. -/
def Scope.words : Scope → String
  | .program => "main"
  | .update => "main update"
  | .render => "main render"

/-- What follows the words. -/
def Scope.pattern : Scope → String
  | .program => "[OPTIONS] COMMAND [ARGS]..."
  | .update => "[OPTIONS] SNAPSHOT [ROOT]"
  | .render => "[OPTIONS] SNAPSHOT LOCKFILE"

/-- The usage line. -/
def Scope.usage (s : Scope) : String := s!"Usage: {s.words} {s.pattern}\n"

/-- What a scope is for, and what it accepts. -/
def Scope.description : Scope → String
  | .program =>
    "\n  Keep gradle.lockfile files in step with the resolved dependency graph.\n" ++
    "\nOptions:\n" ++
    "  -v, --verbose                Verbose logging\n" ++
    "  --log-format [console|json]  Log renderer (default: $GRADLELOCK_LOG_FORMAT or\n" ++
    "                               console)\n" ++
    "  --help                       Show this message and exit.\n" ++
    "\nCommands:\n" ++
    "  render  Print the reconciled LOCKFILE to stdout without writing it.\n" ++
    "  update  Reconcile every gradle.lockfile under ROOT with SNAPSHOT.\n"
  | .update =>
    "\n  Reconcile every gradle.lockfile under ROOT with SNAPSHOT.\n" ++
    "\nOptions:\n" ++
    "  --check             Write nothing; exit 1 if any lock file is outdated\n" ++
    "  -j, --jobs INTEGER  Parallel workers (default: 4)\n" ++
    "  --help              Show this message and exit.\n"
  | .render =>
    "\n  Print the reconciled LOCKFILE to stdout without writing it.\n" ++
    "\nOptions:\n" ++
    "  --module TEXT  Module path in the snapshot (default: the lock file's directory\n" ++
    "                 relative to cwd)\n" ++
    "  --help         Show this message and exit.\n"

/-- The help of a scope. -/
def Scope.help (s : Scope) : Text := (s.usage ++ s.description).text

-- ---------------------------------------------------------------------------
-- Calls that are not understood
-- ---------------------------------------------------------------------------

/-- What is wrong with the value of a parameter. -/
inductive ValueError where
  | notInteger (value : Text)
  | noChoice (value : Text) (choices : List Text)
  | noFile (path : Text)
  | noDirectory (path : Text)
  | fileIsDirectory (path : Text)
  | directoryIsFile (path : Text)
  /-- The file system does not take the path. -/
  | unusable (error : FileError)
  deriving DecidableEq, Repr

/-- What is wrong with a call. -/
inductive UsageError where
  | argument (error : ArgumentError)
  | missingArgument (name : Text)
  | missingCommand
  | unknownCommand (name : Text) (similar : List Text)
  | extraArguments (args : List Text)
  /-- The value of a parameter, which is named as in the usage. -/
  | badValue (parameter : String) (error : ValueError)
  deriving DecidableEq, Repr

/-- The words for a value that is not accepted. -/
def ValueError.message : ValueError → Text
  | .notInteger value => value.quoted ++ " is not a valid integer.".text
  | .noChoice value choices =>
    value.quoted ++ " is not one of ".text ++
      Text.joinWith ", ".text (choices.map Text.quoted) ++ [char '.']
  | .noFile path => "File ".text ++ path.quoted ++ " does not exist.".text
  | .noDirectory path => "Directory ".text ++ path.quoted ++ " does not exist.".text
  | .fileIsDirectory path => "File ".text ++ path.quoted ++ " is a directory.".text
  | .directoryIsFile path => "Directory ".text ++ path.quoted ++ " is a file.".text
  | .unusable e => e.message

/-- A hint at the names that are close to one that is unknown, in increasing order. -/
def hint (similar : List Text) : Text :=
  match (Text.sort similar).map Text.quoted with
  | [] => []
  | [name] => " Did you mean ".text ++ name ++ [char '?']
  | names => " (Did you mean one of: ".text ++ Text.joinWith ", ".text names ++ "?)".text

/-- The words for a call that is not understood. -/
def UsageError.message : UsageError → Text
  | .argument (.unknown name similar) =>
    "No such option ".text ++ name.quoted ++ [char '.'] ++ hint similar
  | .argument (.needsValue name) => "Option ".text ++ name.quoted ++ " requires an argument.".text
  | .argument (.takesNoValue name) =>
    "Option ".text ++ name.quoted ++ " does not take a value.".text
  | .missingArgument name => "Missing argument '".text ++ name ++ "'.".text
  | .missingCommand => "Missing command.".text
  | .unknownCommand name similar =>
    "No such command ".text ++ name.quoted ++ [char '.'] ++ hint similar
  | .extraArguments args =>
    (if args.length = 1 then "Got unexpected extra argument (" else "Got unexpected extra arguments (").text ++
      Text.joinWith [char ' '] args ++ [char ')']
  | .badValue parameter error => s!"Invalid value for {parameter}: ".text ++ error.message

/-- Whether the usage of the command comes before the message. -/
def UsageError.showsUsage : UsageError → Bool
  | .argument (.needsValue _) => false
  | .argument (.takesNoValue _) => false
  | _ => true

/-- All that is written about a call that is not understood. -/
def UsageError.report (s : Scope) (e : UsageError) : Text :=
  (if e.showsUsage then (s.usage ++ s!"Try '{s.words} --help' for help.\n\n").text else []) ++
    "Error: ".text ++ e.message ++ [char '\n']

end Command

end Lockstep
