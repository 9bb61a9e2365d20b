import Lockstep.Text.Words

/-!
# Lockstep — command line arguments

Arguments are options and operands. An option has a long name after two dashes,
and may have a letter after one; letters may be run together. Its value follows,
after an equals sign, in the same argument, or as the next one. Two dashes alone
end the options.

* `OptionSpec`    — what a command accepts.
* `readArguments` — the options that are given, in order, and the operands.
-/

namespace Lockstep

namespace Command

/-- An option that a command accepts; `κ` is what the command knows it by. -/
structure OptionSpec (κ : Type) where
  key : κ
  letter : Option Letter := none
  long : Text
  takesValue : Bool := false

/-- What is wrong with an argument. -/
inductive ArgumentError where
  /-- There is no such option; these have names close to it. -/
  | unknown (name : Text) (similar : List Text)
  | needsValue (name : Text)
  | takesNoValue (name : Text)
  deriving DecidableEq, Repr

/-- An option that is given, with its value if it takes one. -/
abbrev Given (κ : Type) := κ × Option Text

variable {κ : Type}

/-- What an option's own argument leaves of the arguments after it. -/
abbrev Reading (κ : Type) := Except ArgumentError (List (Given κ) × List Text)

/-- Gives an option the next argument as its value. -/
def takeNext (o : OptionSpec κ) (name : Text) : List Text → Reading κ
  | [] => .error (.needsValue name)
  | v :: rest => .ok ([(o.key, some v)], rest)

/-- Letters run together after one dash; the first that takes a value takes what is
left of them. -/
def readLetters (specs : List (OptionSpec κ)) : Text → List Text → Reading κ
  | [], rest => .ok ([], rest)
  | c :: more, rest =>
    match specs.find? fun o => o.letter = some c with
    | none => .error (.unknown [char '-', c] [])
    | some o =>
      if o.takesValue then
        if more.isEmpty then takeNext o [char '-', c] rest else .ok ([(o.key, some more)], rest)
      else (readLetters specs more rest).map fun (given, left) => ((o.key, none) :: given, left)

/-- A long name, with what stands after its equals sign. -/
def splitValue (arg : Text) : Text × Option Text :=
  let name := arg.takeWhile (· ≠ char '=')
  (name, if name.length < arg.length then some (arg.drop (name.length + 1)) else none)

/-- An option's own argument. -/
def readOption (specs : List (OptionSpec κ)) (arg : Text) (rest : List Text) : Reading κ :=
  let (name, value?) := splitValue arg
  match specs.find? fun o => o.long = name with
  | some o =>
    match o.takesValue, value? with
    | true, some v => .ok ([(o.key, some v)], rest)
    | true, none => takeNext o name rest
    | false, some _ => .error (.takesNoValue name)
    | false, none => .ok ([(o.key, none)], rest)
  | none =>
    if arg.take 2 = [char '-', char '-'] then
      .error (.unknown name (Text.similarTo name (specs.map (·.long))))
    else readLetters specs (arg.drop 1) rest

/-- Whether an argument is that of an option. -/
def isOption (arg : Text) : Bool := arg.head? == some (char '-') && decide (1 < arg.length)

/-- The options that are given, in order, and the operands. Options may follow
operands if they are `mixed`. Every argument takes one unit of fuel at most. -/
def readArgumentsWith (specs : List (OptionSpec κ)) (mixed : Bool) :
    Nat → List Text → Except ArgumentError (List (Given κ) × List Text)
  | 0, args => .ok ([], args)
  | _ + 1, [] => .ok ([], [])
  | fuel + 1, arg :: rest =>
    if arg = [char '-', char '-'] then .ok ([], rest)
    else if isOption arg then
      match readOption specs arg rest with
      | .error e => .error e
      | .ok (given, left) =>
        (readArgumentsWith specs mixed fuel left).map fun (more, operands) => (given ++ more, operands)
    else if mixed then
      (readArgumentsWith specs mixed fuel rest).map fun (given, operands) => (given, arg :: operands)
    else .ok ([], arg :: rest)

/-- The options that are given, in order, and the operands. -/
def readArguments (specs : List (OptionSpec κ)) (mixed : Bool) (args : List Text) :
    Except ArgumentError (List (Given κ) × List Text) :=
  readArgumentsWith specs mixed args.length args

end Command

end Lockstep
