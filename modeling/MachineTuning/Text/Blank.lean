import MachineTuning.Text.Ranges

namespace MachineTuning.Text

/-!
# Blank characters — what stands around a text without belonging to it

Blanks are the characters with the property White_Space: spaces of every width, tabs and line
breaks.  `trimmed` takes them off both ends of a text.
-/

/-- The ranges of the blank characters, in increasing order. -/
def blankRanges : CharRanges :=
  [(0x9, 0xD), (0x20, 0x20), (0x85, 0x85), (0xA0, 0xA0), (0x1680, 0x1680), (0x2000, 0x200A),
    (0x2028, 0x2029), (0x202F, 0x202F), (0x205F, 0x205F), (0x3000, 0x3000)]

/-- Whether a character is blank. -/
def isBlank (c : Char) : Bool :=
  blankRanges.contains c

/-- A text without the blanks at its start and at its end. -/
def trimmed (cs : List Char) : List Char :=
  ((cs.dropWhile isBlank).reverse.dropWhile isBlank).reverse

end MachineTuning.Text
