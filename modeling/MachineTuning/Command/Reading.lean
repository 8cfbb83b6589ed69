import MachineTuning.Command.Switch

namespace MachineTuning.Command

/-!
# Reading a command line

`Reading.read` takes the words of a command line from left to right.  A value may stand in the
word behind its option, which is then pending: whether the value is there and fits is settled
only when the next switch that the command knows comes, or the end.  So a word that the command
does not know is reported before anything that is wrong with a pending option.
-/

/-- Why reading stops before the end of the command line. -/
inductive Stop where
  | help
  | version
  | usage (error : UsageError)
  deriving DecidableEq

/-- What a command line has said so far. -/
structure Reading where
  /-- The long names of the switches seen, with their values; flags have none. -/
  settled : List (String × String) := []
  /-- The option that came last, with the value behind it. -/
  pending : Option (Switch × Option String) := none

namespace Reading

/-- Why a value does not fit a switch, if it does not. -/
def valueError? (s : Switch) (value : String) : Option UsageError :=
  if value.isEmpty then some (.missingValue s)
  else if s.choices.isEmpty ∨ value ∈ s.choices then none
  else some (.invalidValue value s)

/-- The reading with a switch that is known to be complete. -/
def add (r : Reading) (s : Switch) (value : String) : Except Stop Reading :=
  if (r.settled.lookup s.long).isSome then .error (.usage (.repeated s))
  else
    match if s.takesValue then valueError? s value else none with
    | some error => .error (.usage error)
    | none => .ok { r with settled := r.settled ++ [(s.long, value)] }

/-- The reading with its pending option settled. -/
def settle (r : Reading) : Except Stop Reading :=
  match r.pending with
  | none => .ok r
  | some (s, none) => .error (.usage (.missingValue s))
  | some (s, some value) => { r with pending := none }.add s value

/-- Whether the next word is the value of an option. -/
def awaitsValue (r : Reading) : Bool :=
  match r.pending with
  | some (_, none) => true
  | _ => false

/-- The reading behind a switch that takes no value. -/
def addPlain (r : Reading) (s : Switch) : Except Stop Reading := do
  let r ← r.settle
  match s.kind with
  | .help => .error .help
  | .version => .error .version
  | _ => r.add s ""

/-- The reading behind an option whose value, if any, stands in the same word. -/
def addOption (r : Reading) (s : Switch) (attached : Option String) : Except Stop Reading := do
  let r ← r.settle
  match attached with
  | some value => r.add s value
  | none => .ok { r with pending := some (s, none) }

/-- The reading behind a word that starts with two dashes, without them. -/
def addLong (switches : List Switch) (r : Reading) (word : List Char) : Except Stop Reading :=
  let name := String.ofList (word.takeWhile (· ≠ '='))
  let attached := match word.dropWhile (· ≠ '=') with
    | _ :: value => some (String.ofList value)
    | [] => none
  match switches.find? (·.long = name) with
  | none => .error (.usage (.unexpectedArgument ("--" ++ name)))
  | some s =>
    if s.takesValue then r.addOption s attached
    else
      match attached with
      | some value => .error (.usage (.unexpectedValue value s))
      | none => r.addPlain s

/-- The reading behind a word of short switches, without its dash. -/
def addShort (switches : List Switch) (r : Reading) : List Char → Except Stop Reading
  | [] => .ok r
  | c :: cs =>
    match switches.find? (·.short = some c) with
    | none => .error (.usage (.unexpectedArgument ("-" ++ c.toString)))
    | some s =>
      -- Flags may share a dash; an option takes the rest of the word.
      if s.takesValue then
        r.addOption s (match cs with
          | [] => none
          | '=' :: value => some (String.ofList value)
          | value => some (String.ofList value))
      else do addShort switches (← r.addPlain s) cs

/-- The error of a word that is no switch and no value.  Where subcommands are expected it is
    taken for one, unless it stands behind a double dash and is one. -/
def strayWord (commands : List String) (afterDashes : Bool) (word : String) : UsageError :=
  if commands.isEmpty ∨ (afterDashes ∧ word ∈ commands) then .unexpectedArgument word
  else .unrecognizedCommand word

/-- The switches of a command line up to its end, or up to a subcommand, which is given with the
    words behind it. -/
def read (switches : List Switch) (commands : List String) :
    Reading → List String → Except Stop (Reading × Option (String × List String))
  | r, [] => do return (← r.settle, none)
  | r, word :: words =>
    -- Behind an option even the name of a subcommand is a value.
    if ¬ r.awaitsValue ∧ word ∈ commands then .ok (r, some (word, words))
    else if word = "--" then
      match words with
      | [] => do return (← r.settle, none)
      | next :: _ => .error (.usage (strayWord commands true next))
    else
      match word.toList with
      | '-' :: '-' :: name => do read switches commands (← addLong switches r name) words
      | '-' :: c :: cs => do read switches commands (← addShort switches r (c :: cs)) words
      | _ =>
        match r.pending with
        | some (s, none) => read switches commands { r with pending := some (s, some word) } words
        | _ => .error (.usage (strayWord commands false word))

end Reading

end MachineTuning.Command
