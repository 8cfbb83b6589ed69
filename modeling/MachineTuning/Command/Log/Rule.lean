import MachineTuning.Command.Log.Event
import MachineTuning.Command.Log.Pattern.OfChars
import MachineTuning.Text.Split
import MachineTuning.Text.Utf8

namespace MachineTuning.Command

/-!
# Log rules — which events to show

A rule says up to which verbosity the events of some part of the program are shown.  It is spelled
`target[section{field=value}]=level`, where all parts but one may be left out.  `LogRule.ofChars?`
reads a rule, `LogRule.fits` says which events it speaks of, and `LogRule.specificity` which of two
rules counts where both do.
-/

/-- A rule of a filter. -/
structure LogRule where
  /-- What the target of an event must start with. -/
  target : Option String := none
  /-- A field that an event must have. -/
  field : Option String := none
  /-- Whether the rule speaks only of what happens inside a section of a run that has a given name
      or a field with a given value.  This program opens no sections. -/
  inSection : Bool := false
  /-- The greatest verbosity that the rule shows; by default everything. -/
  verbosity : Nat := 5

namespace LogRule

/-- Whether a rule speaks of an event. -/
def fits (rule : LogRule) (e : LogEvent) : Bool :=
  !rule.inSection &&
    rule.target.all (fun t => t.toList.isPrefixOf e.target.toList) &&
    rule.field.all e.hasField

/-- The length of a rule's target; no target at all is shorter than an empty one. -/
def targetWidth (rule : LogRule) : Nat :=
  match rule.target with
  | some t => t.utf8ByteSize + 1
  | none => 0

/-- How specific a rule is compared with another: a longer target is more specific, then a field
    is, and then what comes later in the order of texts. -/
def specificity (a b : LogRule) : Ordering :=
  (compare a.targetWidth b.targetWidth).then <|
    (compare a.field.toList.length b.field.toList.length).then <|
      (compare (a.target.getD "") (b.target.getD "")).then <|
        compare (a.field.getD "") (b.field.getD "")

/-! ### Reading a rule -/

/-- A verbosity: a number up to five or the name of a level, in any case. -/
def verbosity? (cs : List Char) : Option Nat :=
  let digits := (['+'].isPrefixOf? cs).getD cs
  if ¬ digits.isEmpty ∧ digits.all Char.isDigit then
    let n := digits.foldl (fun n c => 10 * n + (c.toNat - '0'.toNat)) 0
    if n ≤ 5 then some n else none
  else
    [("off", 0), ("error", 1), ("warn", 2), ("info", 3), ("debug", 4), ("trace", 5)].lookup
      (String.ofList (cs.map Char.toLower))

/-- Whether a text spells a number behind its sign: infinity, no number at all, or digits around a
    point with an exponent or without one. -/
def isMagnitude (cs : List Char) : Bool :=
  let whole := cs.takeWhile Char.isDigit
  let behind := cs.drop whole.length
  let point := ['.'].isPrefixOf? behind
  let fraction := (point.getD []).takeWhile Char.isDigit
  let behind := (point.getD behind).drop fraction.length
  ["inf", "infinity", "nan"].contains (String.ofList (cs.map Char.toLower)) ||
    (!(whole ++ fraction).isEmpty &&
      match behind with
      | [] => true
      | c :: exponent =>
        let digits := (((['+'].isPrefixOf? exponent).or (['-'].isPrefixOf? exponent)).getD exponent)
        (c = 'e' || c = 'E') && !digits.isEmpty && digits.all Char.isDigit)

/-- Whether a text may be the value of a field: a number with a sign or without one, or a
    pattern. -/
def isFieldValue (cs : List Char) : Bool :=
  isMagnitude (((['+'].isPrefixOf? cs).or (['-'].isPrefixOf? cs)).getD cs) ||
    Pattern.isWellFormed cs

/-- A part of a rule by its place and width in bytes.  Both are measured without the blanks around
    the rule, but the part is cut out of the text with them: blanks in front shift every part. -/
def part? (written : List Char) (start width : Nat) : Option (List Char) := do
  Text.takeBytes? width (← Text.dropBytes? start written)

/-- The rule with a verbosity that is written from a place on; where nothing stands everything is
    shown. -/
def limited? (written : List Char) (rule : LogRule) (start : Nat) : Option LogRule := do
  let level ← Text.dropBytes? start written
  if level.isEmpty then some rule else some { rule with verbosity := ← verbosity? level }

/-- The rule behind its brackets, which end in front of a place: nothing, or an equals sign and a
    verbosity, follows them. -/
def finish? (written : List Char) (rule : LogRule) (place : Nat) : List Char → Option LogRule
  | [] => some rule
  | '=' :: _ => limited? written rule (place + 1)
  | _ => none

/-- The rule with a field that it asks for, which may have a value behind an equals sign. -/
def withField? (rule : LogRule) (cs : List Char) : Option LogRule :=
  match Text.splitChars '=' cs with
  | name :: value :: _ =>
    if isFieldValue value then
      some { rule with field := some (String.ofList name), inSection := true }
    else none
  | _ => if cs.isEmpty then none else some { rule with field := some (String.ofList cs) }

/-- The rule behind an opening bracket, which ends in front of a place: the name of a section, a
    field between curly brackets, or both. -/
def bracketed? (written : List Char) (rule : LogRule) (place : Nat) (cs : List Char) :
    Option LogRule := do
  let name := cs.takeWhile fun c => c ≠ ']' && c ≠ '\x7b'
  let width := Text.byteLength name
  match cs.drop name.length with
  | ']' :: cs => do
    let _ ← part? written place width
    finish? written { rule with inSection := true } (place + width + 1) cs
  | _ :: cs => do
    let rule := { rule with inSection := !(← part? written place width).isEmpty }
    let place := place + width + 1
    let field := cs.takeWhile (· ≠ '\x7d')
    let width := Text.byteLength field
    let rule ← withField? rule (← part? written place width)
    match cs.drop field.length with
    | '\x7d' :: ']' :: cs => finish? written rule (place + width + 2) cs
    | _ => none
  | [] => none

/-- Whether a rule may start with a character. -/
def startsRule (c : Char) : Bool :=
  Text.isAlphanumeric c || c = '-' || c = ':' || c = '_'

/-- The rule that a text spells: a verbosity, a target, or parts with punctuation between them. -/
def ofChars? (written : List Char) : Option LogRule := do
  match Text.trimmed written with
  | [] => none
  | '[' :: cs => bracketed? written {} 1 cs
  | c :: cs =>
    if ¬ startsRule c then none
    let target := (c :: cs).takeWhile fun c => c ≠ '=' && c ≠ '['
    let width := Text.byteLength target
    match (c :: cs).drop target.length with
    | [] =>
      -- A word alone is a verbosity if it can be one, and else a target.
      match verbosity? written with
      | some verbosity => some { verbosity }
      | none => some { target := some (String.ofList written) }
    | sign :: cs =>
      let rule := { target := some (String.ofList (← part? written 0 width)) }
      if sign = '[' then bracketed? written rule (width + 1) cs
      else limited? written rule (width + 1)

end LogRule

end MachineTuning.Command
