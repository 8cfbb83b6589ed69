namespace MachineTuning.Text

/-!
# Character classes as ranges of code points

A class of characters that follows no simple rule is a table: closed ranges of code points in
increasing order.
-/

/-- Closed ranges of code points. -/
abbrev CharRanges := List (Nat × Nat)

/-- Whether a character lies in one of the ranges. -/
def CharRanges.contains (ranges : CharRanges) (c : Char) : Bool :=
  ranges.any fun r => r.1 ≤ c.toNat && c.toNat ≤ r.2

end MachineTuning.Text
