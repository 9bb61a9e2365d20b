import Lockstep.Decimal.Shortest
import Lockstep.Json.Reader

/-!
# Lockstep — writing JSON

One line of ASCII: the fields of an object by name, a blank after each comma and
each colon, and every other character as an escape by number, in two halves if it
needs two code units.
-/

namespace Lockstep

namespace Json

/-- The digit of a number below sixteen. -/
def hexChar (n : Nat) : Letter := char (Char.ofNat (if n < 10 then 0x30 + n else 0x57 + n))

/-- The four hexadecimal digits of a code unit. -/
def hexQuad (n : Nat) : Text :=
  [hexChar (n / 4096 % 16), hexChar (n / 256 % 16), hexChar (n / 16 % 16), hexChar (n % 16)]

/-- An escape by number. -/
def unitEscape (n : Nat) : Text := char '\\' :: char 'u' :: hexQuad n

/-- A letter as it stands in a string. -/
def escapeChar (c : Letter) : Text :=
  if c = char '"' then [char '\\', char '"']
  else if c = char '\\' then [char '\\', char '\\']
  else if c = char '\n' then [char '\\', char 'n']
  else if c = char '\r' then [char '\\', char 'r']
  else if c = char '\t' then [char '\\', char 't']
  else if c = char '\x0c' then [char '\\', char 'f']
  else if c = char '\x08' then [char '\\', char 'b']
  else if char ' ' ≤ c ∧ c ≤ char '~' then [c]
  else if c.code < 0x10000 then unitEscape c.code
  else
    let n := c.code - 0x10000
    unitEscape (0xd800 + n / 0x400) ++ unitEscape (0xdc00 + n % 0x400)

/-- A text as a string. -/
def writeString (s : Text) : Text := char '"' :: (s.flatMap escapeChar ++ [char '"'])

mutual

/-- A value in one line of ASCII. -/
def write : Value → Text
  | .null => "null".text
  | .bool true => "true".text
  | .bool false => "false".text
  | .int n => Text.ofInt n
  | .float x => x.text "NaN".text "Infinity".text
  | .string s => writeString s
  | .array items => char '[' :: (Text.joinWith ", ".text (writeItems items) ++ [char ']'])
  | .object fields =>
    let written := (Text.sortBy (·.1) (writeFields fields)).map (·.2)
    char '\x7b' :: (Text.joinWith ", ".text written ++ [char '\x7d'])

/-- Each item as it is written. -/
def writeItems : List Value → List Text
  | [] => []
  | v :: rest => write v :: writeItems rest

/-- Each field as it is written, with its name. -/
def writeFields : List (Text × Value) → List (Text × Text)
  | [] => []
  | (name, v) :: rest => (name, writeString name ++ ": ".text ++ write v) :: writeFields rest

end

end Json

end Lockstep
