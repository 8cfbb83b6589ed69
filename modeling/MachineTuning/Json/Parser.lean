import MachineTuning.Json
import MachineTuning.Text.Hexadecimal

namespace MachineTuning.Json

/-!
# Reading JSON

`Json.parse?` reads the text of one value with blanks around it and refuses everything that the
format does not allow.  Each reader takes the characters that are left and gives back what it
read with the characters behind it.  Containers are read with an allowance that the length of
the text bounds: every value takes up at least one character.
-/

/-- The blanks that may stand between the parts of a document. -/
def isBlank (c : Char) : Bool :=
  c = ' ' || c = '\t' || c = '\n' || c = '\r'

/-- The characters behind any blanks. -/
def skipBlanks (cs : List Char) : List Char :=
  cs.dropWhile isBlank

/-! ### Texts -/

/-- The code unit that four hexadecimal digits spell. -/
def codeUnit? : List Char → Option (Nat × List Char)
  | a :: b :: c :: d :: cs => do some (← Text.hexValue? [a, b, c, d], cs)
  | _ => none

/-- The character of a `\u` escape, behind the `u`: one code unit, or two that form a surrogate
    pair. -/
def unicodeEscape? (cs : List Char) : Option (Char × List Char) := do
  let (unit, cs) ← codeUnit? cs
  if 0xD800 ≤ unit ∧ unit < 0xDC00 then
    -- The first half of a pair is nothing without an escape of the second.
    let (low, cs) ← codeUnit? (← ['\\', 'u'].isPrefixOf? cs)
    if 0xDC00 ≤ low ∧ low < 0xE000 then
      some (Char.ofNat (0x10000 + (unit - 0xD800) * 0x400 + (low - 0xDC00)), cs)
    else none
  else if 0xDC00 ≤ unit ∧ unit < 0xE000 then none
  else some (Char.ofNat unit, cs)

/-- The character of an escape, behind the backslash. -/
def escape? : List Char → Option (Char × List Char)
  | '"' :: cs => some ('"', cs)
  | '\\' :: cs => some ('\\', cs)
  | '/' :: cs => some ('/', cs)
  | 'b' :: cs => some ('\x08', cs)
  | 'f' :: cs => some ('\x0c', cs)
  | 'n' :: cs => some ('\n', cs)
  | 'r' :: cs => some ('\r', cs)
  | 't' :: cs => some ('\t', cs)
  | 'u' :: cs => unicodeEscape? cs
  | _ => none

/-- The characters of a text up to its closing quote. -/
def textBody? : Nat → List Char → Option (List Char × List Char)
  | 0, _ => none
  | _ + 1, [] => none
  | fuel + 1, c :: cs =>
    if c = '"' then some ([], cs)
    else if c = '\\' then do
      let (c, cs) ← escape? cs
      let (body, cs) ← textBody? fuel cs
      some (c :: body, cs)
    -- Controls must be escaped.
    else if c.toNat < 0x20 then none
    else do
      let (body, cs) ← textBody? fuel cs
      some (c :: body, cs)

/-- A text, behind its opening quote. -/
def text? (cs : List Char) : Option (String × List Char) := do
  let (body, cs) ← textBody? (cs.length + 1) cs
  some (String.ofList body, cs)

/-! ### Numbers -/

/-- The number that decimal digits spell behind the digits of `start`. -/
def decimalFrom (start : Nat) (digits : List Char) : Nat :=
  digits.foldl (fun n c => 10 * n + (c.toNat - '0'.toNat)) start

/-- Digits are added to a significand as long as it stays below 2⁶⁴; the others are dropped.
    Gives the significand and how many digits it took. -/
def extendSignificand (significand : Nat) : List Char → Nat × Nat
  | [] => (significand, 0)
  | c :: cs =>
    let next := 10 * significand + (c.toNat - '0'.toNat)
    if next < 0x10000000000000000 then
      let (significand, taken) := extendSignificand next cs
      (significand, taken + 1)
    else (significand, 0)

/-- The binary64 number of a digit sequence. -/
def real? (negative : Bool) (whole fraction : List Char) (exponent : Int) : Option Json := do
  let (significand, taken) := extendSignificand 0 whole
  let (significand, places) := extendSignificand significand fraction
  let x ← Binary64.ofDecimal? negative significand
    (((whole.length - taken : Nat) : Int) - places + exponent)
  some (.number (.real x))

/-- The value of digits without point or exponent: an integer if 64 bits hold it.  Zero with a
    sign is no integer. -/
def integer? (negative : Bool) (whole : List Char) : Option Json :=
  let n := decimalFrom 0 whole
  if negative then
    if n = 0 ∨ 0x8000000000000000 < n then real? negative whole [] 0 else some (ofInt (-n))
  else if n < 0x10000000000000000 then some (ofInt n)
  else real? negative whole [] 0

/-- An exponent, behind its `e`. -/
def exponent? (cs : List Char) : Option (Int × List Char) :=
  let (negative, cs) : Bool × List Char := match cs with
    | '-' :: cs => (true, cs)
    | '+' :: cs => (false, cs)
    | cs => (false, cs)
  let digits := cs.takeWhile Char.isDigit
  if digits.isEmpty then none
  else
    let n : Int := decimalFrom 0 digits
    some (if negative then -n else n, cs.dropWhile Char.isDigit)

/-- A number, behind its sign. -/
def number? (negative : Bool) (cs : List Char) : Option (Json × List Char) := do
  let whole := cs.takeWhile Char.isDigit
  let cs := cs.dropWhile Char.isDigit
  -- No number but zero starts with a zero.
  if whole.isEmpty ∨ (whole.head? = some '0' ∧ 1 < whole.length) then none
  let fraction? : Option (List Char) := match cs with
    | '.' :: cs => some (cs.takeWhile Char.isDigit)
    | _ => none
  -- A point must have digits behind it.
  if fraction? = some [] then none
  let cs := match cs with
    | '.' :: cs => cs.dropWhile Char.isDigit
    | cs => cs
  match cs with
  | c :: rest =>
    if c = 'e' ∨ c = 'E' then
      let (exponent, rest) ← exponent? rest
      some (← real? negative whole (fraction?.getD []) exponent, rest)
    else finish whole fraction? cs
  | [] => finish whole fraction? cs
where
  /-- The number without an exponent. -/
  finish (whole : List Char) (fraction? : Option (List Char)) (cs : List Char) :
      Option (Json × List Char) := do
    match fraction? with
    | none => some (← integer? negative whole, cs)
    | some fraction => some (← real? negative whole fraction 0, cs)

/-! ### Values -/

mutual
/-- A value, behind any blanks. -/
def value? : Nat → List Char → Option (Json × List Char)
  | 0, _ => none
  | fuel + 1, cs =>
    match skipBlanks cs with
    | [] => none
    | c :: cs =>
      if c = 'n' then do some (.null, ← "ull".toList.isPrefixOf? cs)
      else if c = 't' then do some (.boolean true, ← "rue".toList.isPrefixOf? cs)
      else if c = 'f' then do some (.boolean false, ← "alse".toList.isPrefixOf? cs)
      else if c = '"' then do
        let (s, cs) ← text? cs
        some (.text s, cs)
      else if c = '[' then
        match skipBlanks cs with
        | ']' :: cs => some (.array [], cs)
        | cs => do
          let (item, cs) ← value? fuel cs
          let (items, cs) ← items? fuel cs
          some (.array (item :: items), cs)
      else if c = '\x7b' then
        match skipBlanks cs with
        | '\x7d' :: cs => some (.object [], cs)
        | cs => do
          let (member, cs) ← member? fuel cs
          let (members, cs) ← members? fuel cs
          some (.object (member :: members), cs)
      else if c = '-' then number? true cs
      else number? false (c :: cs)

/-- The items behind the first, up to the closing bracket. -/
def items? : Nat → List Char → Option (List Json × List Char)
  | 0, _ => none
  | fuel + 1, cs =>
    match skipBlanks cs with
    | ']' :: cs => some ([], cs)
    | ',' :: cs => do
      let (item, cs) ← value? fuel cs
      let (items, cs) ← items? fuel cs
      some (item :: items, cs)
    | _ => none

/-- A key, its colon and its value. -/
def member? : Nat → List Char → Option ((String × Json) × List Char)
  | 0, _ => none
  | fuel + 1, cs => do
    let (key, cs) ← text? (← ['"'].isPrefixOf? (skipBlanks cs))
    let (value, cs) ← value? fuel (← [':'].isPrefixOf? (skipBlanks cs))
    some ((key, value), cs)

/-- The members behind the first, up to the closing bracket. -/
def members? : Nat → List Char → Option (List (String × Json) × List Char)
  | 0, _ => none
  | fuel + 1, cs =>
    match skipBlanks cs with
    | '\x7d' :: cs => some ([], cs)
    | ',' :: cs => do
      let (member, cs) ← member? fuel cs
      let (members, cs) ← members? fuel cs
      some (member :: members, cs)
    | _ => none
end

-- Every proof about the reader goes by these equations, so they are derived here, once for all.
attribute [grind =] value? items? member? members?

/-- The value that a text spells, with blanks around it and nothing else. -/
def parse? (s : String) : Option Json := do
  -- Two steps for each character are enough.
  let (v, cs) ← value? (2 * s.length + 1) s.toList
  if (skipBlanks cs).isEmpty then some v else none

end MachineTuning.Json
