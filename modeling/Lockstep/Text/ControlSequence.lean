import Lockstep.Text.Basic

/-!
# Lockstep — control sequences

A control sequence tells a terminal how to show what follows: an escape and an
opening bracket, any parameters, any intermediate characters, and one final
character. It is no part of what a reader sees, so that it is left out of what
does not go to a terminal. What only begins like one is kept.

* `Text.withoutControls` — the text without its control sequences.
-/

namespace Lockstep

namespace ControlSequence

/-- How much of a control sequence has been read. -/
inductive Phase where
  | escape
  | parameters
  | intermediates
  deriving DecidableEq, Repr

/-- What a character does to a control sequence that has begun. -/
inductive Turn where
  | goOn (phase : Phase)
  | finish
  | breakOff
  deriving DecidableEq, Repr

/-- The character that begins a control sequence. -/
def escape : Letter := char '\x1b'

def isParameter (c : Letter) : Bool := char '0' ≤ c && c ≤ char '?'

def isIntermediate (c : Letter) : Bool := char ' ' ≤ c && c ≤ char '/'

def isFinal (c : Letter) : Bool := char '@' ≤ c && c ≤ char '~'

/-- The turn that a control sequence takes at a character. -/
def Phase.turn (p : Phase) (c : Letter) : Turn :=
  match p with
  | .escape => if c = char '[' then .goOn .parameters else .breakOff
  | .parameters =>
    if isParameter c then .goOn .parameters
    else if isIntermediate c then .goOn .intermediates
    else if isFinal c then .finish
    else .breakOff
  | .intermediates =>
    if isIntermediate c then .goOn .intermediates
    else if isFinal c then .finish
    else .breakOff

/-- Leaves out the control sequences. What has been read of one that is not finished
is held, the last character first, and given back if it breaks off. -/
def drop : Option (Phase × Text) → Text → Text
  | none, [] => []
  | none, c :: rest => if c = escape then drop (some (.escape, [c])) rest else c :: drop none rest
  | some (_, held), [] => held.reverse
  | some (phase, held), c :: rest =>
    match phase.turn c with
    | .goOn next => drop (some (next, c :: held)) rest
    | .finish => drop none rest
    | .breakOff =>
      held.reverse ++
        if c = escape then drop (some (.escape, [c])) rest else c :: drop none rest

end ControlSequence

namespace Text

/-- The text without the control sequences in it. -/
def withoutControls (t : Text) : Text := ControlSequence.drop none t

end Text

end Lockstep
