import Lockstep.Json.Reader
import Lockstep.Project
import Lockstep.Snapshot.Complaint
import Lockstep.Text.Words

/-!
# Lockstep — snapshot documents

The resolver writes one document per build: an object with a list of modules,
each with configurations, each with the dependencies that it resolved to.
Checking it visits every place and collects all complaints; fields that are not
known are not looked at.

A value that goes into a lock line must not hold a letter that means something
there, and must not be blank. Blanks at its ends are dropped.

* `token?` — the token that a value writes.
* `dependency`, `configuration`, `module`, `modules` — each part of a document.
* `boolean` — the spellings of a truth value.
-/

namespace Lockstep

namespace Snapshot

open Json (Value)

-- ---------------------------------------------------------------------------
-- Tokens of a lock line
-- ---------------------------------------------------------------------------

/-- The characters with a meaning on the left side of a lock line, by code point. -/
def coordinateSeparators : List Letter := [char '\n', char '\r', char ',', char ':', char '=']

/-- The characters with a meaning on the right side of a lock line, by code point. -/
def configurationSeparators : List Letter := [char '\n', char '\r', char ',', char '=']

/-- The token that a value writes, if it can stand in a lock line. -/
def token? (separators : List Letter) (v : Text) : Except Problem Text :=
  let trimmed := v.trim
  if trimmed.isEmpty then .error .blankToken
  else
    let bad := separators.filter fun c => trimmed.contains c
    if bad.isEmpty then .ok trimmed else .error (.forbidden bad)

-- ---------------------------------------------------------------------------
-- Plain values
-- ---------------------------------------------------------------------------

/-- The place of a field. -/
def fieldAt (place : List Segment) (name : String) : List Segment :=
  place ++ [.field name.text]

/-- The place of an item. -/
def indexAt (place : List Segment) (i : Nat) : List Segment := place ++ [.index i]

/-- A text. -/
def text (place : List Segment) : Value → Checked Text
  | .string s => .ok s
  | _ => Checked.complain place .notText

/-- A text that may be missing altogether. -/
def optionalText (place : List Segment) : Value → Checked (Option Text)
  | .null => .ok none
  | v => (text place v).map some

/-- A text that can stand in a lock line. -/
def token (separators : List Letter) (place : List Segment) (v : Value) : Checked Text :=
  match text place v with
  | .error es => .error es
  | .ok s =>
    match token? separators s with
    | .ok t => .ok t
    | .error problem => Checked.complain place problem

/-- The spellings of true. -/
def trueWords : List Text := ["1", "on", "t", "true", "y", "yes"].map String.text

/-- The spellings of false. -/
def falseWords : List Text := ["0", "off", "f", "false", "n", "no"].map String.text

/-- The number of whole numbers below zero that fit into 64 bits with a sign. -/
def wordBound : Int := 0x8000000000000000

/-- Whether a whole number fits into 64 bits with a sign. -/
def fitsWord (n : Int) : Bool := -wordBound ≤ n && n < wordBound

/-- The truth value of a whole number: that of 0 and 1, none of the others. One that
does `fit` is at least a number that could be looked at. -/
def booleanOfInt (place : List Segment) (fit : Bool) (n : Int) : Checked Bool :=
  if n = 0 then .ok false
  else if n = 1 then .ok true
  else Checked.complain place (if fit then .unknownBoolean else .notBoolean)

/-- A truth value, as such, as a number, or as one of the usual words. The least
word is reached by whole numbers only, for a float at either end of the range may
stand for a number beyond it. -/
def boolean (place : List Segment) : Value → Checked Bool
  | .bool b => .ok b
  | .int n => booleanOfInt place (fitsWord n) n
  | .float x =>
    match x.toInt? with
    | some n => booleanOfInt place (fitsWord n && n != -wordBound) n
    | none => Checked.complain place .notBoolean
  | .string s =>
    if s.any Letter.isHalf then Checked.complain place .brokenText
    else if trueWords.contains (s.lowercase) then .ok true
    else if falseWords.contains (s.lowercase) then .ok false
    else Checked.complain place .unknownBoolean
  | _ => Checked.complain place .notBoolean

-- ---------------------------------------------------------------------------
-- Lists and fields
-- ---------------------------------------------------------------------------

/-- A list, each of whose items is checked at its own place. -/
def list {α : Type} (item : List Segment → Value → Checked α) (place : List Segment) :
    Value → Checked (List α)
  | .array items => Checked.all (items.zipIdx.map fun (v, i) => item (indexAt place i) v)
  | _ => Checked.complain place .notList

/-- A field that must be there. -/
def required {α : Type} (check : List Segment → Value → Checked α) (place : List Segment)
    (fields : List (Text × Value)) (name : String) : Checked α :=
  match fields.lookup name.text with
  | some v => check (fieldAt place name) v
  | none => Checked.complain (fieldAt place name) .missing

/-- A field with a value for its absence. -/
def optional {α : Type} (check : List Segment → Value → Checked α) (default : α)
    (place : List Segment) (fields : List (Text × Value)) (name : String) : Checked α :=
  match fields.lookup name.text with
  | some v => check (fieldAt place name) v
  | none => .ok default

/-- An object of a shape, by its fields. -/
def object {α : Type} (shape : Shape) (check : List Segment → List (Text × Value) → Checked α)
    (place : List Segment) : Value → Checked α
  | .object fields => check place fields
  | _ => Checked.complain place (.notObject shape)

-- ---------------------------------------------------------------------------
-- Parts of a document
-- ---------------------------------------------------------------------------

/-- A dependency of a configuration. -/
def dependency : List Segment → Value → Checked Coordinate :=
  object .dependency fun place fields =>
    let part := token coordinateSeparators
    (Checked.both (required part place fields "group")
      (Checked.both (required part place fields "artifact") (required part place fields "version"))).map
      fun (group, artifact, version) => ⟨group, artifact, version⟩

/-- A configuration of a module. -/
def configuration : List Segment → Value → Checked Configuration :=
  object .configuration fun place fields =>
    (Checked.both (required (token configurationSeparators) place fields "name")
      (Checked.both (optional boolean true place fields "can_be_resolved")
        (optional (list dependency) [] place fields "resolved"))).map
      fun (name, resolvable, resolved) => ⟨name, resolvable, resolved⟩

/-- A module: its path and its project. -/
def module : List Segment → Value → Checked (Text × Project) :=
  object .module fun place fields =>
    (Checked.both (optional text [] place fields "path")
      (Checked.both (required text place fields "name")
        (Checked.both (optional optionalText none place fields "group")
          (optional (list configuration) [] place fields "configurations")))).map
      fun (path, name, group, configurations) =>
        (ModulePath.ofSnapshot path, ⟨name, group, configurations⟩)

/-- All modules of a document. -/
def modules : Value → Checked (List (Text × Project)) :=
  object .build (fun place fields => required (list module) place fields "modules") []

end Snapshot

end Lockstep
