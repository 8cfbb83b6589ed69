import MachineTuning.Yaml.Scalar

namespace MachineTuning.Yaml

/-!
# How texts are written

A text is written in the plainest of four ways that reads back as the same text: as it is,
between single quotes, on lines of its own or, where nothing else will do, between double quotes
with escapes.  `Style.ofText` makes the choice.
-/

/-- The ways of writing a text. -/
inductive Style where
  | plain
  | singleQuoted
  | literal
  | doubleQuoted
  deriving DecidableEq

namespace Style

/-! ### What a text contains -/

/-- Whether a character may be written as it is. -/
def isPrintable (c : Char) : Bool :=
  let n := c.toNat
  n = 0x0A || (0x20 ≤ n && n ≤ 0x7E) || (0xA0 ≤ n && n ≤ 0xD7FF) ||
    (0xE000 ≤ n && n ≤ 0xFFFD && n ≠ 0xFEFF) || 0x10000 ≤ n

/-- Whether some character with one property is directly followed by one with another. -/
def hasPair (p q : Char → Bool) : List Char → Bool
  | c :: d :: cs => (p c && q d) || hasPair p q (d :: cs)
  | _ => false

/-- Whether the first or the last character has a property. -/
def hasEdge (p : Char → Bool) (cs : List Char) : Bool :=
  cs.head?.any p || cs.getLast?.any p

/-- Whether a text starts like a marker between documents. -/
def startsLikeBorder (cs : List Char) : Bool :=
  ['-', '-', '-'].isPrefixOf cs || ['.', '.', '.'].isPrefixOf cs

/-- Whether the first character would be taken for punctuation. -/
def startsLikePunctuation : List Char → Bool
  | [] => false
  | c :: cs =>
    "#,[]\x7b\x7d&*!|>'\"%@\x60".toList.contains c || ((c = '?' || c = ':' || c = '-') && atGap cs)

/-- Whether a colon or a number sign further on would be taken for punctuation. -/
def holdsPunctuation : List Char → Bool
  | c :: d :: cs =>
    (d = ':' && atGap cs) || (d = '#' && (isBlank c || isBreak c)) || holdsPunctuation (d :: cs)
  | _ => false

/-- Whether a text holds characters that only escapes can express. -/
def needsEscapes (cs : List Char) : Bool :=
  cs.any fun c => !isPrintable c

/-- Whether a space stands before a line break. -/
def hasSpaceBeforeBreak (cs : List Char) : Bool :=
  hasPair (· = ' ') isBreak cs

/-! ### What a text admits -/

/-- Whether a text may stand as it is. -/
def admitsPlain (cs : List Char) : Bool :=
  !startsLikeBorder cs && !startsLikePunctuation cs && !holdsPunctuation cs &&
    !cs.any isBreak && !hasEdge (· = ' ') cs && !needsEscapes cs

/-- Whether a text may stand between single quotes. -/
def admitsSingleQuotes (cs : List Char) : Bool :=
  !hasPair isBreak (· = ' ') cs && !hasSpaceBeforeBreak cs && !needsEscapes cs

/-- Whether a text may stand on lines of its own. -/
def admitsLiteral (cs : List Char) : Bool :=
  !cs.isEmpty && cs.getLast? ≠ some ' ' && !hasSpaceBeforeBreak cs && !needsEscapes cs

/-- Whether a text without quotes would be read as something else. -/
def readsAsOther (s : String) : Bool :=
  Scalar.hasLeadingZero s.toList || Scalar.plainFound s ≠ .text s

/-- Whether a text can be the key of a mapping without further marks. -/
def admitsSimpleKey (s : String) : Bool :=
  !s.toList.any isBreak && s.utf8ByteSize ≤ 128

/-- The way of writing a text. -/
def ofText (s : String) : Style :=
  let cs := s.toList
  if cs.contains '\n' then
    if admitsLiteral cs then .literal else .doubleQuoted
  else if ¬ readsAsOther s ∧ admitsPlain cs then .plain
  else if admitsSingleQuotes cs then .singleQuoted
  else .doubleQuoted

end Style

end MachineTuning.Yaml
