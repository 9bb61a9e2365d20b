import Lockstep.Json.Writer
import Lockstep.Log.Record
import Lockstep.Log.Settings
import Lockstep.Text.Quoted

/-!
# Lockstep — lines of the log

A record is written as one line, for a reader at a console or as one JSON object.
Fields come in the order of their names. At a console a few have places of their
own: the one whose name is empty stands before the time, another name of the
logger follows the logger, and the trace of calls and the exception follow the line.

* `Record.line?` — a record in a format, without the last line feed.
* `writeLog`     — the lines of the records that pass.
-/

namespace Lockstep

namespace Log

open Json (Value)

-- ---------------------------------------------------------------------------
-- Values at a console
-- ---------------------------------------------------------------------------

mutual

/-- A value as it stands inside another one. -/
def shown : Value → Text
  | .null => "None".text
  | .bool true => "True".text
  | .bool false => "False".text
  | .int n => Text.ofInt n
  | .float x => x.text "nan".text "inf".text
  | .string s => s.quoted
  | .array items => char '[' :: (Text.joinWith ", ".text (shownItems items) ++ [char ']'])
  | .object fields => char '\x7b' :: (Text.joinWith ", ".text (shownFields fields) ++ [char '\x7d'])

/-- Each item as it stands in its list. -/
def shownItems : List Value → List Text
  | [] => []
  | v :: rest => shown v :: shownItems rest

/-- Each field as it stands in its object. -/
def shownFields : List (Text × Value) → List Text
  | [] => []
  | (name, v) :: rest => (name.quoted ++ ": ".text ++ shown v) :: shownFields rest

end

/-- The characters for which a text is quoted at a console. -/
def quotedFor : List Letter := [char ' ', char '\t', char '=', char '\r', char '\n', char '"', char '\'']

/-- A value at a console: a text as it is, unless it could not be told from what
is around it. -/
def plain : Value → Text
  | .string s => if s.any quotedFor.contains then s.quoted else s
  | v => shown v

/-- A value between brackets at a console: a text as it is. -/
def bare : Value → Text
  | .string s => s
  | v => shown v

-- ---------------------------------------------------------------------------
-- Lines
-- ---------------------------------------------------------------------------

/-- The fields that every record has, written at some time. -/
def standardFields (time : Text) (r : Record) : List (Text × Value) :=
  [textField "event" r.event, textField "level" r.severity.name.text, textField "logger" r.logger,
    textField "timestamp" time]

/-- The field that asks for the exception at hand. There is never one, so that it is
not written. -/
def currentExceptionField : Text := "exc_info".text

/-- The fields of a record besides those that every record has and those that are
not written. -/
def Record.ownFields (r : Record) : List (Text × Value) :=
  r.fields.filter fun f =>
    ((standardFields [] r).lookup f.1).isNone && !(currentExceptionField :: r.hidden).contains f.1

/-- The field whose name is empty. -/
def namelessField : Text := []

/-- A field with another name of the logger. -/
def loggerNameField : Text := "logger_name".text

/-- A field with the trace of calls. -/
def traceField : Text := "stack".text

/-- A field with the text of an exception. -/
def exceptionField : Text := "exception".text

/-- The fields that have places of their own at a console. -/
def placedFields : List Text := [namelessField, loggerNameField, traceField, exceptionField]

/-- A field at a console. -/
def pair (name : Text) (v : Value) : Text := name ++ char '=' :: plain v

/-- The first line of a record at a console. -/
def Record.consoleHead (time : Text) (r : Record) : Text :=
  let nameless :=
    match r.ownFields.lookup namelessField with
    | some v => pair namelessField v ++ [char ' ']
    | none => []
  let otherName :=
    match r.ownFields.lookup loggerNameField with
    | some v => " [".text ++ bare v ++ "]".text
    | none => []
  let pairs := (Text.sortBy (·.1) (r.ownFields.filter fun f => !placedFields.contains f.1)).map
    fun f => char ' ' :: pair f.1 f.2
  nameless ++ time ++ " [".text ++ Text.padEnd 9 r.severity.name.text ++ "] ".text ++
    Text.padEnd 30 r.event ++ " [".text ++ r.logger ++ "]".text ++ otherName ++ pairs.flatten

/-- The text of a field below the first line, which may be missing but must not be
another value. -/
def lowerText? (fields : List (Text × Value)) (name : Text) : Option (Option Text) :=
  match fields.lookup name with
  | none => some none
  | some .null => some none
  | some (.string s) => some (some s)
  | some _ => none

/-- What stands between a trace and an exception. -/
def rule : Text := char '\n' :: char '\n' :: (List.replicate 79 (char '=') ++ [char '\n'])

/-- A record at a console, with the trace and the exception below its first line; a
record in which one of them is no text cannot be written. -/
def Record.consoleLine? (time : Text) (r : Record) : Option Text :=
  match lowerText? r.ownFields traceField, lowerText? r.ownFields exceptionField with
  | some none, some none => some (r.consoleHead time)
  | some (some trace), some none => some (r.consoleHead time ++ char '\n' :: trace)
  | some none, some (some e) => some (r.consoleHead time ++ char '\n' :: e)
  | some (some trace), some (some e) =>
    some (r.consoleHead time ++ char '\n' :: (trace ++ rule ++ char '\n' :: e))
  | _, _ => none

/-- The line of a record as a JSON object. -/
def Record.jsonLine (time : Text) (r : Record) : Text :=
  Json.write (.object (standardFields time r ++ r.ownFields))

/-- A record in a format, written at some time. -/
def Record.line? (format : Format) (time : Text) (r : Record) : Option Text :=
  match format with
  | .console => r.consoleLine? time
  | .json => some (r.jsonLine time)

/-- Whether a record is written. -/
def Record.passes (settings : Settings) (r : Record) : Bool :=
  r.severity.passes settings.level r.logger

/-- The lines of the records that pass and can be written, all written at one time. -/
def writeLog (settings : Settings) (time : Text) (rs : List Record) : Text :=
  ((rs.filter (·.passes settings)).filterMap (·.line? settings.format time)).flatMap (· ++ [char '\n'])

end Log

end Lockstep
