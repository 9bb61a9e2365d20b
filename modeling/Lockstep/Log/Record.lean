import Lockstep.Update
import Lockstep.Json.Reader
import Lockstep.Log.Level

/-!
# Lockstep — records of the log

A record is an event as it goes to the log: with its logger, its severity, its
name and its fields.

* `Record.ofEvent` — the record of an event of the library.
-/

namespace Lockstep

namespace Log

open Json (Value)

/-- An event as it goes to the log. -/
structure Record where
  logger : Text
  severity : Severity
  event : Text
  fields : List (Text × Value) := []
  /-- The names of fields that are never written. -/
  hidden : List Text := []

-- ---------------------------------------------------------------------------
-- Records of events
-- ---------------------------------------------------------------------------

/-- A field with a text. -/
def textField (name : String) (t : Text) : Text × Value := (name.text, .string t)

/-- A field with a number. -/
def numberField (name : String) (n : Nat) : Text × Value := (name.text, .int n)

/-- The name of a reason in the log. -/
def reasonName : DropReason → String
  | .separator => "separator"
  | .coordinate => "coordinate"

/-- A record of one of the library's loggers. -/
def ownRecord (logger : Logger) (severity : Severity) (event : String)
    (fields : List (Text × Value)) : Record :=
  ⟨logger.name.text, severity, event.text, fields, []⟩

/-- The record of an event. -/
def Record.ofEvent : Event → Record
  | .lineDropped number reason =>
    ownRecord .engine .debug "lock.parse.line_dropped"
      [numberField "lineno" number, textField "reason" (reasonName reason).text]
  | .reconciled project recomputed preserved entries empty =>
    ownRecord .engine .debug "lock.reconcile.done"
      [textField "project" project, numberField "recomputed" recomputed,
        numberField "preserved" preserved, numberField "entries" entries, numberField "empty" empty]
  | .unreadable path error =>
    ownRecord .engine .warning "lock.update.unreadable" [textField "path" path, textField "error" error]
  | .unchanged path project =>
    ownRecord .engine .info "lock.update.unchanged" [textField "path" path, textField "project" project]
  | .written path project =>
    ownRecord .engine .info "lock.update.written" [textField "path" path, textField "project" project]
  | .outdated path project =>
    ownRecord .engine .info "lock.update.outdated" [textField "path" path, textField "project" project]
  | .badJobs value => ownRecord .command .warning "cli.bad_jobs_env" [textField "value" value]
  | .moduleSkipped path reason =>
    ownRecord .command .warning "cli.module_skipped" [textField "path" path, textField "reason" reason]

end Log

end Lockstep
