import MachineTuning.Text.Quoted

namespace MachineTuning.Command

/-!
# Log events — what a run tells

A run tells what it does in log events.  An event has a level, the part of the program that it
belongs to, a message and fields.
-/

/-- How important an event is. -/
inductive LogLevel where
  | info
  | debug
  deriving DecidableEq

namespace LogLevel

/-- The level as a log line shows it. -/
def name : LogLevel → String
  | .info => "INFO"
  | .debug => "DEBUG"

/-- The least verbosity at which the level is shown. -/
def verbosity : LogLevel → Nat
  | .info => 3
  | .debug => 4

end LogLevel

/-- An event of a run. -/
structure LogEvent where
  level : LogLevel
  /-- The part of the program that the event belongs to. -/
  target : String
  message : String
  fields : List (String × String)
  deriving DecidableEq

namespace LogEvent

/-- A field whose value is shown as it is. -/
def plainField (name value : String) : String × String :=
  (name, value)

/-- A field whose value is shown between quotes. -/
def quotedField (name value : String) : String × String :=
  (name, Text.quoted value)

/-- A field that counts something. -/
def countField (name : String) (value : Nat) : String × String :=
  (name, toString value)

/-- Whether an event has a field; its message counts as one. -/
def hasField (e : LogEvent) (name : String) : Bool :=
  name = "message" || (e.fields.lookup name).isSome

/-- The level of an event, its message and its fields. -/
def line (e : LogEvent) : String :=
  e.level.name ++ " " ++ e.message ++
    String.join (e.fields.map fun f => " " ++ f.1 ++ "=" ++ f.2) ++ "\n"

end LogEvent

end MachineTuning.Command
