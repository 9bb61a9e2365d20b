import Lockstep.Log.Level

/-!
# Lockstep — log settings

The level and the format of the log. An explicit choice wins over the
environment, and what is empty counts as not given. A level or a format that is
not known is replaced by the default, not by the next choice.
-/

namespace Lockstep

/-- The variables of an environment. -/
abbrev Environment := List (Text × Text)

/-- The value of a variable. -/
def Environment.get? (env : Environment) (name : String) : Option Text :=
  List.lookup name.text env

namespace Log

/-- How lines of the log are written. -/
inductive Format where
  | console
  | json
  deriving DecidableEq, Repr

/-- The name of a format. -/
def Format.name : Format → String
  | .console => "console"
  | .json => "json"

/-- The format of a name, in any case. -/
def Format.ofName? (t : Text) : Option Format :=
  [Format.console, Format.json].find? fun f => f.name.text = t.lowercase

/-- Level and format of the log. -/
structure Settings where
  level : Level := .info
  format : Format := .console
  deriving DecidableEq, Repr

/-- The first choice that is given and not empty. -/
def firstGiven (choices : List (Option Text)) : Option Text :=
  (choices.filterMap id).find? fun t => !t.isEmpty

/-- The settings of explicit choices in an environment. -/
def Settings.resolve (level format : Option Text) (env : Environment) : Settings where
  level := ((firstGiven [level, env.get? "GRADLELOCK_LOG_LEVEL"]).bind Level.ofName?).getD .info
  format := ((firstGiven [format, env.get? "GRADLELOCK_LOG_FORMAT"]).bind Format.ofName?).getD .console

end Log

end Lockstep
