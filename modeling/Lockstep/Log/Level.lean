import Lockstep.Text.Words

/-!
# Lockstep — log levels

How grave an event is, and from which gravity on a logger writes. A level is
named in any mixture of small letters and capitals; a name that is no level
counts as `INFO`. A logger without a level of its own has that of the root.

* `Level.ofName?`    — the level of a name.
* `Severity.passes`  — whether an event is written by a logger.
-/

namespace Lockstep

namespace Log

/-- How grave an event is. -/
inductive Severity where
  | debug
  | info
  | warning
  | error
  | critical
  deriving DecidableEq, Repr

/-- The number by which severities and levels are compared. -/
def Severity.rank : Severity → Nat
  | .debug => 10
  | .info => 20
  | .warning => 30
  | .error => 40
  | .critical => 50

/-- The name of a severity. -/
def Severity.name : Severity → String
  | .debug => "debug"
  | .info => "info"
  | .warning => "warning"
  | .error => "error"
  | .critical => "critical"

/-- The names that a level can have. -/
inductive Level where
  | critical
  | fatal
  | error
  | warn
  | warning
  | info
  | debug
  | notset
  deriving DecidableEq, Repr

namespace Level

/-- All levels. -/
def all : List Level := [critical, fatal, error, warn, warning, info, debug, notset]

/-- The name of a level. -/
def name : Level → String
  | critical => "CRITICAL"
  | fatal => "FATAL"
  | error => "ERROR"
  | warn => "WARN"
  | warning => "WARNING"
  | info => "INFO"
  | debug => "DEBUG"
  | notset => "NOTSET"

/-- The least severity that passes; none of its own for a logger that takes that of the root. -/
def threshold? : Level → Option Nat
  | critical => some 50
  | fatal => some 50
  | error => some 40
  | warn => some 30
  | warning => some 30
  | info => some 20
  | debug => some 10
  | notset => none

/-- The level of a name, in any case. -/
def ofName? (t : Text) : Option Level :=
  all.find? fun l => l.name.text = t.capitalize

end Level

/-- The loggers of the library, whose level can be chosen. -/
inductive Logger where
  | engine
  | command
  deriving DecidableEq, Repr

/-- The name of a logger. -/
def Logger.name : Logger → String
  | .engine => "gradlelock.engine"
  | .command => "gradlelock.cli"

/-- The name of the root. -/
def rootName : Text := "root".text

/-- The name of the logger that is asked for by a name; the empty name is that of the root. -/
def loggerOf (name : Text) : Text := if name.isEmpty then rootName else name

/-- The least severity that the root writes. -/
def rootThreshold : Nat := 30

/-- Whether a logger is the named one, or below it. -/
def isWithin (logger : Text) (top : Logger) : Bool :=
  logger == top.name.text || (top.name.text ++ [char '.']).isPrefixOf logger

/-- The least severity that a logger writes, at a level for the library's own. -/
def thresholdOf (level : Level) (logger : Text) : Nat :=
  if isWithin logger .engine || isWithin logger .command then level.threshold?.getD rootThreshold
  else rootThreshold

/-- Whether a logger writes an event of a severity. -/
def Severity.passes (s : Severity) (level : Level) (logger : Text) : Bool :=
  thresholdOf level logger ≤ s.rank

end Log

end Lockstep
