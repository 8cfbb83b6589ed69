import MachineTuning.Command.Log.Rule
import MachineTuning.Text.Split

namespace MachineTuning.Command

/-!
# Log filters

A `LogFilter` is a list of rules; of the rules that speak of an event the most specific one decides
whether it is shown.
-/

/-- Which events are shown. -/
abbrev LogFilter := List LogRule

namespace LogFilter

/-- The filter that shows everything up to a verbosity. -/
def upTo (verbosity : Nat) : LogFilter := [{ verbosity }]

/-- The filter that shows everything this program tells. -/
def debug : LogFilter := upTo 4

/-- The filter that shows warnings and errors, of which this program tells none. -/
def quiet : LogFilter := upTo 2

/-- The filter that a text spells: rules between commas. -/
def ofText? (s : String) : Option LogFilter :=
  ((Text.splitChars ',' s.toList).filter (!·.isEmpty)).mapM LogRule.ofChars?

/-- The filter of a run: everything if debugging is asked for, else what the environment spells,
    and only warnings if it spells no filter. -/
def ofEnvironment (debugging : Bool) (setting : Option String) : LogFilter :=
  if debugging then debug else (setting.bind ofText?).getD quiet

/-- The rule that decides about an event: the most specific one, of equals the last. -/
def deciding? (filter : LogFilter) (e : LogEvent) : Option LogRule :=
  (filter.filter (·.fits e)).foldl (fun best? rule =>
    match best? with
    | none => some rule
    | some best => some (if best.specificity rule = .gt then best else rule)) none

/-- Whether an event is shown. -/
def shows (filter : LogFilter) (e : LogEvent) : Bool :=
  (filter.deciding? e).any fun rule => e.level.verbosity ≤ rule.verbosity

end LogFilter

end MachineTuning.Command
