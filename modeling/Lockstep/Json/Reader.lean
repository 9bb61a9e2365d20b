import Lockstep.Decimal.Binary64
import Lockstep.Text.Basic

/-!
# Lockstep — JSON values, and reading them

Whole numbers and floating point numbers are kept apart, as their texts are. The
fields of an object stand in the order in which their names first occurred; of
two fields of one name the later value counts (`putField`).

The grammar is that of JSON with `NaN`, `Infinity` and `-Infinity`. A text that does
not follow it is refused at the first place where that shows, and the refusal names
the place by line, column and offset (`ReadError.message`). Half of a surrogate pair
that is written by number and stands alone is a letter of the string like any other.

A cursor is a text with the number of letters before it. Each step of the reader
spends at least one unit of its fuel per letter, and `read` provides enough for the
whole text. How deep arrays and objects may be nested is a matter of the reader's
caller, who has the rest of the stack.

* `Value`, `Value.field?` — JSON values, and the fields of objects.
* `read`                  — the value that a text writes, nested no deeper than given.
-/

namespace Lockstep

namespace Json

-- ---------------------------------------------------------------------------
-- Values
-- ---------------------------------------------------------------------------

/-- A JSON value. -/
inductive Value where
  | null
  | bool (b : Bool)
  | int (n : Int)
  | float (x : Binary64)
  | string (s : Text)
  | array (items : List Value)
  | object (fields : List (Text × Value))
  deriving Repr, Inhabited

/-- The fields with one more, which takes the place of an earlier one of its name. -/
def putField (name : Text) (v : Value) : List (Text × Value) → List (Text × Value)
  | [] => [(name, v)]
  | f :: rest => if f.1 = name then (name, v) :: rest else f :: putField name v rest

namespace Value

/-- The field of a name, if the value is an object that has one. -/
def field? : Value → Text → Option Value
  | .object fields, name => fields.lookup name
  | _, _ => none

end Value

-- ---------------------------------------------------------------------------
-- Refusals
-- ---------------------------------------------------------------------------

/-- What is wrong with a text at some place. -/
inductive Fault where
  | expectedValue
  | expectedName
  | expectedColon
  | expectedComma
  | extraData
  | unterminated
  | controlCharacter
  | badEscape
  | badCodeEscape
  | byteOrderMark
  deriving DecidableEq, Repr

/-- The words for a fault. -/
def Fault.describe : Fault → String
  | .expectedValue => "Expecting value"
  | .expectedName => "Expecting property name enclosed in double quotes"
  | .expectedColon => "Expecting ':' delimiter"
  | .expectedComma => "Expecting ',' delimiter"
  | .extraData => "Extra data"
  | .unterminated => "Unterminated string starting at"
  | .controlCharacter => "Invalid control character at"
  | .badEscape => "Invalid \\escape"
  | .badCodeEscape => "Invalid \\uXXXX escape"
  | .byteOrderMark => "Unexpected UTF-8 BOM (decode using utf-8-sig)"

/-- Why a text is not read. -/
inductive ReadError where
  /-- It does not follow the grammar. -/
  | malformed (fault : Fault) (offset : Nat)
  /-- Its arrays and objects are nested too deeply. -/
  | tooDeep (kind : String)
  /-- A whole number has too many digits. -/
  | tooManyDigits (count : Nat)
  deriving DecidableEq, Repr

/-- The greatest number of digits of a whole number. -/
def maxDigits : Nat := 4300

/-- The line and the column, from 1, of an offset into a text. -/
def lineAndColumn (text : Text) (offset : Nat) : Nat × Nat :=
  let before := text.take offset
  (before.count (char '\n') + 1, (before.reverse.takeWhile (· ≠ char '\n')).length + 1)

/-- What is reported about a text that is not read. -/
def ReadError.message (text : Text) : ReadError → Text
  | .malformed fault offset =>
    let (line, column) := lineAndColumn text offset
    s!"{fault.describe}: line {line} column {column} (char {offset})".text
  | .tooDeep kind =>
    s!"maximum recursion depth exceeded while decoding a JSON {kind} from a unicode string".text
  | .tooManyDigits count =>
    (s!"Exceeds the limit ({maxDigits} digits) for integer string conversion: value has {count}" ++
      " digits; use sys.set_int_max_str_digits() to increase the limit").text

-- ---------------------------------------------------------------------------
-- Cursors
-- ---------------------------------------------------------------------------

/-- What is left of a text, and how many characters stand before it. -/
structure Cursor where
  offset : Nat
  rest : Text
  deriving DecidableEq, Repr

namespace Cursor

/-- The cursor some characters further on. -/
def advance (c : Cursor) (n : Nat) : Cursor := ⟨c.offset + n, c.rest.drop n⟩

/-- Refuses the text at the cursor. -/
def fail {α : Type} (c : Cursor) (fault : Fault) : Except ReadError α :=
  .error (.malformed fault c.offset)

/-- The characters that may stand between two tokens. -/
def isSpace (c : Letter) : Bool := c = char ' ' || c = char '\t' || c = char '\n' || c = char '\r'

/-- The cursor after the space it stands at. -/
def skipSpace (c : Cursor) : Cursor :=
  c.advance (c.rest.takeWhile isSpace).length

end Cursor

-- ---------------------------------------------------------------------------
-- Strings
-- ---------------------------------------------------------------------------

/-- The value of a hexadecimal digit. -/
def hexDigit? (c : Letter) : Option Nat :=
  if char '0' ≤ c ∧ c ≤ char '9' then some (c.code - 0x30)
  else if char 'a' ≤ c ∧ c ≤ char 'f' then some (c.code - 0x57)
  else if char 'A' ≤ c ∧ c ≤ char 'F' then some (c.code - 0x37)
  else none

/-- The number that four hexadecimal digits write. -/
def hexQuad? (ds : Text) : Option Nat :=
  ds.foldlM (fun n c => (hexDigit? c).map fun d => 16 * n + d) 0

/-- Whether a code unit is the first of a pair. -/
def isHighSurrogate (n : Nat) : Bool := 0xd800 ≤ n && n ≤ 0xdbff

/-- Whether a code unit is the second of a pair. -/
def isLowSurrogate (n : Nat) : Bool := 0xdc00 ≤ n && n ≤ 0xdfff

/-- The letter of an escape by number, at its letter `u`, and how many letters it
takes after the backslash. After the digits there must still be something, and the
second half of a pair must be complete, too; half of a pair that is not followed by
the other half is a letter of its own. -/
def codeEscape (c : Cursor) : Except ReadError (Letter × Nat) :=
  let digits := c.rest.drop 1
  if (digits.take 5).length < 5 then c.fail .badCodeEscape
  else
    match hexQuad? (digits.take 4) with
    | none => c.fail .badCodeEscape
    | some unit =>
      let after := digits.drop 4
      if isHighSurrogate unit && (after.take 7).length == 7 && after.take 2 == [char '\\', char 'u'] then
        match hexQuad? ((after.drop 2).take 4) with
        | none => (c.advance 6).fail .badCodeEscape
        | some second =>
          if isLowSurrogate second then
            .ok (.ofCode (0x10000 + (unit - 0xd800) * 0x400 + (second - 0xdc00)), 11)
          else .ok (.ofCode unit, 5)
      else .ok (.ofCode unit, 5)

/-- The letter that one after a backslash stands for. -/
def letterEscape? : Letter → Option Letter
  | char '"' => some (char '"')
  | char '\\' => some (char '\\')
  | char '/' => some (char '/')
  | char 'b' => some (char '\x08')
  | char 'f' => some (char '\x0c')
  | char 'n' => some (char '\n')
  | char 'r' => some (char '\r')
  | char 't' => some (char '\t')
  | _ => none

/-- The letter of an escape, at its backslash, and how many letters follow the backslash. -/
def escape (start : Cursor) (c : Cursor) : Except ReadError (Letter × Nat) :=
  match c.rest.drop 1 with
  | [] => start.fail .unterminated
  | char 'u' :: _ => codeEscape (c.advance 1)
  | letter :: _ =>
    match letterEscape? letter with
    | some value => .ok (value, 1)
    | none => c.fail .badEscape

/-- The characters up to the closing quote, with those already read in reverse;
`start` is the opening quote. -/
def stringTail (start : Cursor) (read : Text) (offset : Nat) :
    Text → Except ReadError (Text × Cursor)
  | [] => start.fail .unterminated
  | c :: rest =>
    if c = char '"' then .ok (read.reverse, ⟨offset + 1, rest⟩)
    else if c = char '\\' then
      match escape start ⟨offset, c :: rest⟩ with
      | .error e => .error e
      | .ok (value, n) => stringTail start (value :: read) (offset + 1 + n) (rest.drop n)
    else if c.code < 0x20 then Cursor.fail ⟨offset, rest⟩ .controlCharacter
    else stringTail start (c :: read) (offset + 1) rest
  termination_by t => t.length
  decreasing_by
    · simp only [List.length_drop, List.length_cons]; omega
    · simp

/-- A string, at its opening quote. -/
def readString (c : Cursor) : Except ReadError (Text × Cursor) :=
  stringTail c [] (c.offset + 1) (c.rest.drop 1)

-- ---------------------------------------------------------------------------
-- Numbers
-- ---------------------------------------------------------------------------

/-- Whether a character is one of the ten digits of JSON. -/
def isDigit (c : Letter) : Bool := char '0' ≤ c && c ≤ char '9'

/-- The number that digits write. -/
def natOfDigits (ds : Text) : Nat := ds.foldl (fun n c => 10 * n + (c.code - 0x30)) 0

/-- The digits before the point: a zero alone, or digits of which the first is no zero. -/
def wholeDigits : Text → Text
  | char '0' :: _ => [char '0']
  | t => t.takeWhile isDigit

/-- The digits after the point, if a point with a digit comes next. -/
def fractionDigits : Text → Text
  | char '.' :: rest => rest.takeWhile isDigit
  | _ => []

/-- Whether a sign stands in front. -/
def signLength : Text → Nat
  | char '+' :: _ => 1
  | char '-' :: _ => 1
  | _ => 0

/-- The sign and the digits of an exponent, if it has digits. -/
def exponentPart : Text → Option (Text × Text)
  | e :: rest =>
    if e = char 'e' ∨ e = char 'E' then
      let sign := rest.take (signLength rest)
      let digits := (rest.drop sign.length).takeWhile isDigit
      if digits.isEmpty then none else some (sign, digits)
    else none
  | [] => none

/-- A number. A point without a digit after it, and an exponent without digits, are
not part of it. -/
def readNumber (c : Cursor) : Except ReadError (Value × Cursor) :=
  let negative := c.rest.head? == some (char '-')
  let body := if negative then c.rest.drop 1 else c.rest
  let whole := wholeDigits body
  if whole.isEmpty then c.fail .expectedValue
  else
    let afterWhole := body.drop whole.length
    let fraction := fractionDigits afterWhole
    let fractionLength := if fraction.isEmpty then 0 else fraction.length + 1
    let signCount := if negative then 1 else 0
    match exponentPart (afterWhole.drop fractionLength) with
    | some (sign, digits) =>
      let size : Int := natOfDigits digits
      let exponent := (if sign = [char '-'] then -size else size) - fraction.length
      .ok (.float (.ofDecimal negative (natOfDigits (whole ++ fraction)) exponent),
        c.advance (signCount + whole.length + fractionLength + 1 + sign.length + digits.length))
    | none =>
      let after := c.advance (signCount + whole.length + fractionLength)
      if fraction.isEmpty then
        if maxDigits < whole.length then .error (.tooManyDigits whole.length)
        else
          let n : Int := natOfDigits whole
          .ok (.int (if negative then -n else n), after)
      else .ok (.float (.ofDecimal negative (natOfDigits (whole ++ fraction)) (-fraction.length)), after)

-- ---------------------------------------------------------------------------
-- Values
-- ---------------------------------------------------------------------------

/-- The words that are values. -/
def wordValues : List (Text × Value) :=
  [("null".text, .null), ("true".text, .bool true), ("false".text, .bool false),
   ("NaN".text, .float .nan), ("Infinity".text, .float (.infinite false)),
   ("-Infinity".text, .float (.infinite true))]

/-- A word or a number. -/
def readPlain (c : Cursor) : Except ReadError (Value × Cursor) :=
  match wordValues.find? fun w => w.1.isPrefixOf c.rest with
  | some (word, v) => .ok (v, c.advance word.length)
  | none => readNumber c

mutual

/-- A value, `depth` levels above the deepest allowed. -/
def readValue (fuel depth : Nat) (c : Cursor) : Except ReadError (Value × Cursor) :=
  match fuel with
  | 0 => c.fail .expectedValue
  | fuel + 1 =>
    match c.rest with
    | [] => c.fail .expectedValue
    | char '"' :: _ => (readString c).map fun (s, after) => (.string s, after)
    | char '[' :: _ =>
      if depth = 0 then .error (.tooDeep "array")
      else
        let inside := (c.advance 1).skipSpace
        if inside.rest.head? = some (char ']') then .ok (.array [], inside.advance 1)
        else readItems fuel (depth - 1) [] inside
    | char '\x7b' :: _ =>
      if depth = 0 then .error (.tooDeep "object")
      else
        let inside := (c.advance 1).skipSpace
        if inside.rest.head? = some (char '\x7d') then .ok (.object [], inside.advance 1)
        else readFields fuel (depth - 1) [] inside
    | _ => readPlain c

/-- The items of an array up to its end, after those already read in reverse. -/
def readItems (fuel depth : Nat) (read : List Value) (c : Cursor) :
    Except ReadError (Value × Cursor) :=
  match fuel with
  | 0 => c.fail .expectedValue
  | fuel + 1 =>
    match readValue fuel depth c with
    | .error e => .error e
    | .ok (v, after) =>
      let after := after.skipSpace
      match after.rest with
      | char ']' :: _ => .ok (.array (v :: read).reverse, after.advance 1)
      | char ',' :: _ => readItems fuel depth (v :: read) (after.advance 1).skipSpace
      | _ => after.fail .expectedComma

/-- The fields of an object up to its end, after those already read. -/
def readFields (fuel depth : Nat) (read : List (Text × Value)) (c : Cursor) :
    Except ReadError (Value × Cursor) :=
  match fuel with
  | 0 => c.fail .expectedName
  | fuel + 1 =>
    if c.rest.head? ≠ some (char '"') then c.fail .expectedName
    else
      match readString c with
      | .error e => .error e
      | .ok (name, after) =>
        let colon := after.skipSpace
        if colon.rest.head? ≠ some (char ':') then colon.fail .expectedColon
        else
          match readValue fuel depth (colon.advance 1).skipSpace with
          | .error e => .error e
          | .ok (v, after) =>
            let after := after.skipSpace
            match after.rest with
            | char '\x7d' :: _ => .ok (.object (putField name v read), after.advance 1)
            | char ',' :: _ => readFields fuel depth (putField name v read) (after.advance 1).skipSpace
            | _ => after.fail .expectedComma

end

/-- The value that a text writes, with nothing but space around it, nested no deeper
than given. -/
def read (depth : Nat) (text : Text) : Except ReadError Value :=
  if text.head? = some (char '\ufeff') then Cursor.fail ⟨0, text⟩ .byteOrderMark
  else
    match readValue (2 * text.length + 2) depth (Cursor.skipSpace ⟨0, text⟩) with
    | .error e => .error e
    | .ok (v, after) =>
      let after := after.skipSpace
      if after.rest.isEmpty then .ok v else after.fail .extraData

end Json

end Lockstep
