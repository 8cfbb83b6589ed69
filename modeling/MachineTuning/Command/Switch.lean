import MachineTuning.Text.Terminal

namespace MachineTuning.Command

/-!
# Switches — what a command line may say

A command takes switches: flags that stand alone and options that take a value.  This file says
what a switch is, how it is shown to a user and what can be wrong with a command line.
-/

/-- What a switch does. -/
inductive SwitchKind where
  /-- It is on or off. -/
  | flag
  /-- It asks for help. -/
  | help
  /-- It asks for the version. -/
  | version
  /-- It takes a value: one of the choices, or any text but the empty one if there are none. -/
  | value (name : String) (choices : List String)
  deriving DecidableEq

/-- A switch of a command. -/
structure Switch where
  short : Option Char
  long : String
  kind : SwitchKind
  /-- What help says about it. -/
  note : String
  deriving DecidableEq

namespace Switch

/-- The name of the value that a switch takes, as users see it. -/
def valueLabel (s : Switch) : String :=
  match s.kind with
  | .value name _ => " <" ++ name ++ ">"
  | _ => ""

/-- A switch as messages show it. -/
def shown (s : Switch) : String :=
  "--" ++ s.long ++ s.valueLabel

/-- A switch as help shows it; long names stand below each other. -/
def label (s : Switch) : String :=
  (match s.short with
    | some c => "-" ++ c.toString ++ ", "
    | none => "    ") ++ s.shown

/-- The values that a switch is limited to. -/
def choices (s : Switch) : List String :=
  match s.kind with
  | .value _ choices => choices
  | _ => []

/-- Whether a switch takes a value. -/
def takesValue (s : Switch) : Bool :=
  match s.kind with
  | .value _ _ => true
  | _ => false

end Switch

/-- What is wrong with a command line. -/
inductive UsageError where
  | unexpectedArgument (argument : String)
  | unrecognizedCommand (name : String)
  | unexpectedValue (value : String) (s : Switch)
  | missingValue (s : Switch)
  | invalidValue (value : String) (s : Switch)
  | repeated (s : Switch)
  | missingSwitches (switches : List Switch)
  | missingCommand (program : String) (names : List String)
  deriving DecidableEq

namespace UsageError

/-- A text between single quotes. -/
def inQuotes (s : String) : String :=
  "'" ++ s ++ "'"

/-- What a user wrote, as messages show it: without what a terminal would act on. -/
def echoed (s : String) : String :=
  inQuotes (Text.Terminal.visible s)

/-- The permitted values of a switch, as an extra line. -/
def choiceLines (s : Switch) : List String :=
  if s.choices.isEmpty then []
  else ["  [possible values: " ++ ", ".intercalate s.choices ++ "]"]

/-- The lines that tell a user what is wrong. -/
def lines : UsageError → List String
  | .unexpectedArgument argument => ["error: unexpected argument " ++ echoed argument ++ " found"]
  | .unrecognizedCommand name => ["error: unrecognized subcommand " ++ echoed name]
  | .unexpectedValue value s =>
    ["error: unexpected value " ++ echoed value ++ " for " ++ inQuotes s.shown ++
      " found; no more were expected"]
  | .missingValue s =>
    ("error: a value is required for " ++ inQuotes s.shown ++ " but none was supplied") ::
      choiceLines s
  | .invalidValue value s =>
    ("error: invalid value " ++ echoed value ++ " for " ++ inQuotes s.shown) :: choiceLines s
  | .repeated s =>
    ["error: the argument " ++ inQuotes s.shown ++ " cannot be used multiple times"]
  | .missingSwitches switches =>
    "error: the following required arguments were not provided:" ::
      switches.map fun s => "  " ++ s.shown
  | .missingCommand program names =>
    ["error: " ++ inQuotes program ++ " requires a subcommand but one was not provided",
      "  [subcommands: " ++ ", ".intercalate names ++ "]"]

end UsageError

end MachineTuning.Command
