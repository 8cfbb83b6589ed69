import MachineTuning.Json
import MachineTuning.Number.Shortest
import MachineTuning.Text.Hexadecimal

namespace MachineTuning.Json

/-!
# Writing JSON

One printer serves both layouts of a document.  A `Layout` says where lines break and what
follows a colon; `Json.compact` writes without any blanks, `Json.pretty` puts every item and
member on a line of its own, two spaces deeper than its container.  Empty containers stay on
one line in both.
-/

/-- Where a document breaks its lines. -/
structure Layout where
  /-- What stands in front of an item at this depth. -/
  lineBreak : Nat → List Char
  /-- What stands between a colon and the value. -/
  afterColon : List Char

/-- No blanks at all. -/
def Layout.compact : Layout := ⟨fun _ => [], []⟩

/-- A line for each item, indented by two spaces for each container around it. -/
def Layout.pretty : Layout := ⟨fun depth => '\n' :: List.replicate (2 * depth) ' ', [' ']⟩

/-- One character inside a text: the quote and the backslash behind a backslash, controls by
    their letter or as `\u` with four digits, all others as they are. -/
def escapedChar (c : Char) : List Char :=
  if c = '"' then ['\\', '"']
  else if c = '\\' then ['\\', '\\']
  else if c = '\x08' then ['\\', 'b']
  else if c = '\t' then ['\\', 't']
  else if c = '\n' then ['\\', 'n']
  else if c = '\x0c' then ['\\', 'f']
  else if c = '\r' then ['\\', 'r']
  else if c.toNat < 0x20 then '\\' :: 'u' :: Text.padded 4 (Text.hexadecimal c.toNat)
  else [c]

/-- A text between quotes. -/
def textChars (s : String) : List Char :=
  '"' :: s.toList.flatMap escapedChar ++ ['"']

/-- An integer in decimal, with its sign if it is negative. -/
def integerChars : Int → List Char
  | .ofNat n => Nat.toDigits 10 n
  | .negSucc n => '-' :: Nat.toDigits 10 (n + 1)

/-- A number in decimal; one without a finite value has no spelling and is written `null`. -/
def numberChars : Number → List Char
  | .integer n => integerChars n
  | .real (.finite negative mantissa exponent) =>
    (Binary64.finite negative mantissa exponent).scientificText.toList
  | .real _ => "null".toList

mutual
/-- The text of a value that stands `depth` containers deep. -/
def print (layout : Layout) (depth : Nat) : Json → List Char
  | .null => "null".toList
  | .boolean b => (if b then "true" else "false").toList
  | .number n => numberChars n
  | .text s => textChars s
  | .array [] => ['[', ']']
  | .array (item :: items) =>
    '[' :: layout.lineBreak (depth + 1) ++ print layout (depth + 1) item ++
      printItems layout (depth + 1) items ++ layout.lineBreak depth ++ [']']
  | .object [] => ['\x7b', '\x7d']
  | .object ((key, value) :: members) =>
    '\x7b' :: layout.lineBreak (depth + 1) ++ textChars key ++ ':' :: layout.afterColon ++
      print layout (depth + 1) value ++
      printMembers layout (depth + 1) members ++ layout.lineBreak depth ++ ['\x7d']

/-- The items behind the first, each after a comma. -/
def printItems (layout : Layout) (depth : Nat) : List Json → List Char
  | [] => []
  | item :: items =>
    ',' :: layout.lineBreak depth ++ print layout depth item ++ printItems layout depth items

/-- The members behind the first, each after a comma. -/
def printMembers (layout : Layout) (depth : Nat) : List (String × Json) → List Char
  | [] => []
  | (key, value) :: members =>
    ',' :: layout.lineBreak depth ++ textChars key ++ ':' :: layout.afterColon ++
      print layout depth value ++ printMembers layout depth members
end

/-- The text of a value without blanks. -/
def compact (v : Json) : String :=
  String.ofList (print .compact 0 v)

/-- The text of a value with one line for each item and member. -/
def pretty (v : Json) : String :=
  String.ofList (print .pretty 0 v)

end MachineTuning.Json
