import MachineTuning.Text.Alphabetic
import MachineTuning.Text.Numeric

namespace MachineTuning.Text

/-!
# Alphanumeric characters — letters and numbers of every script
-/

/-- Whether a character is a letter or a number of some script. -/
def isAlphanumeric (c : Char) : Bool :=
  isAlphabetic c || isNumeric c

end MachineTuning.Text
