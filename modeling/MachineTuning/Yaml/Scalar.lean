import MachineTuning.Number.Binary64
import MachineTuning.Schema.Mismatch
import MachineTuning.Text.Hexadecimal
import MachineTuning.Yaml.Node

namespace MachineTuning.Yaml

/-!
# What scalars mean

Where a document is expected to hold a number, a truth value or nothing, the text of a scalar is
looked at: `Scalar.isNull`, `Scalar.boolean?`, `Scalar.integer?` and `Scalar.real?` say which
texts count.  `Scalar.found` is what a mismatch calls a scalar; tags and quotes take part in it.
-/

namespace Scalar

/-- The words for nothing. -/
def isNull (s : String) : Bool :=
  ["null", "Null", "NULL", "~"].contains s

/-- The words for a truth value. -/
def boolean? (s : String) : Option Bool :=
  if ["true", "True", "TRUE"].contains s then some true
  else if ["false", "False", "FALSE"].contains s then some false
  else none

/-! ### Integers -/

/-- The number that digits of a base spell; there must be at least one. -/
def naturalIn? (base : Nat) (digits : List Char) : Option Nat :=
  if digits.isEmpty then none
  else digits.foldl (fun n? c => do
    let d ← Text.hexDigit? c
    if d < base then some (base * (← n?) + d) else none) (some 0)

/-- Whether a text is digits with a zero in front, which is no number. -/
def hasLeadingZero (cs : List Char) : Bool :=
  let digits := match cs with
    | '+' :: cs => cs
    | '-' :: cs => cs
    | cs => cs
  1 < digits.length && digits.head? = some '0' && digits.all Char.isDigit

/-- Digits behind the mark of their base: `0x`, `0o` or `0b`. -/
def marked? : List Char → Option (Nat × List Char)
  | '0' :: 'x' :: digits => some (16, digits)
  | '0' :: 'o' :: digits => some (8, digits)
  | '0' :: 'b' :: digits => some (2, digits)
  | _ => none

/-- A number not below zero, in any base, with or without a plus. -/
def natural? (cs : List Char) : Option Nat :=
  let digits := match cs with
    | '+' :: digits => digits
    | digits => digits
  match marked? digits with
  | some (base, digits) => naturalIn? base digits
  | none => if hasLeadingZero cs then none else naturalIn? 10 digits

/-- The number behind a minus, in any base. -/
def negated? : List Char → Option Nat
  | '-' :: cs =>
    match marked? cs with
    | some (base, digits) => naturalIn? base digits
    | none => if hasLeadingZero ('-' :: cs) then none else naturalIn? 10 cs
  | _ => none

/-- The integer that a text spells, if a word of so many bits holds it; `signed` words hold
    `2 ^ (bits - 1)` numbers below zero, the others none. -/
def unsigned? (bits : Nat) (s : String) : Option Nat := do
  let n ← natural? s.toList
  if n < 1 <<< bits then some n else none

/-- The number below zero, or minus zero, that a text spells, if a signed word of so many bits
    holds it. -/
def negative? (bits : Nat) (s : String) : Option Int := do
  let n ← negated? s.toList
  if n ≤ 1 <<< (bits - 1) then some (-n) else none

/-- The integer that a text spells, if a signed word of 64 bits holds it. -/
def signed? (s : String) : Option Int :=
  match unsigned? 63 s with
  | some n => some n
  | none => negative? 64 s

/-- The integer that a text spells, as a mismatch shows it: 64 bits come before 128. -/
def integer? (s : String) : Option Found :=
  ((unsigned? 64 s).map fun n => .integer n) <|>
    ((negative? 64 s).map fun n => .integer n) <|>
    ((unsigned? 128 s).map fun n => .wideInteger n) <|>
    ((negative? 128 s).map fun n => .wideInteger n)

/-! ### Numbers with a fraction or an exponent -/

/-- The number `± digits · 10 ^ exponent`, if it is finite. -/
def realOf? (negative : Bool) (digits : List Char) (exponent : Int) : Option Binary64 :=
  let significand := digits.foldl (fun n c => 10 * n + (c.toNat - '0'.toNat)) 0
  -- Far from what the format holds the power is not computed.
  let size := (Nat.toDigits 10 significand).length + exponent
  if significand = 0 ∨ size < -330 then some (.zero negative)
  else if 330 < size then none
  else
    match Binary64.nearest negative (significand * (10 : Rat) ^ exponent) with
    | .infinite _ => none
    | x => some x

/-- An exponent, or nothing. -/
def exponent? : List Char → Option Int
  | [] => some 0
  | c :: cs =>
    if c = 'e' ∨ c = 'E' then
      match cs with
      | '-' :: digits => (naturalIn? 10 digits).map fun n => -n
      | '+' :: digits => (naturalIn? 10 digits).map fun n => n
      | digits => (naturalIn? 10 digits).map fun n => n
    else none

/-- Digits around a point and an exponent.  The point may stand at either end, but not alone. -/
def decimal? (negative : Bool) (cs : List Char) : Option Binary64 := do
  let whole := cs.takeWhile Char.isDigit
  let cs := cs.dropWhile Char.isDigit
  let (fraction, cs) : List Char × List Char := match cs with
    | '.' :: cs => (cs.takeWhile Char.isDigit, cs.dropWhile Char.isDigit)
    | cs => ([], cs)
  if whole.isEmpty ∧ fraction.isEmpty then none
  realOf? negative (whole ++ fraction) ((← exponent? cs) - fraction.length)

/-- The words for infinity, behind a sign. -/
def isInfinity (cs : List Char) : Bool :=
  [".inf", ".Inf", ".INF"].contains (String.ofList cs)

/-- The number that a text spells. -/
def real? (s : String) : Option Binary64 :=
  if [".nan", ".NaN", ".NAN"].contains s then some .notANumber
  else
    match s.toList with
    | '+' :: cs => if isInfinity cs then some (.infinite false) else decimal? false cs
    | '-' :: cs => if isInfinity cs then some (.infinite true) else decimal? true cs
    | cs => if isInfinity cs then some (.infinite false) else decimal? false cs

/-! ### Mismatches -/

/-- The tag of a type that every document knows. -/
def coreTag (name : String) : String :=
  "tag:yaml.org,2002:" ++ name

/-- What a scalar without quotes and without a tag is called. -/
def plainFound (s : String) : Found :=
  if s.isEmpty ∨ isNull s then .null
  else
    match boolean? s with
    | some b => .boolean b
    | none =>
      match integer? s with
      | some found => found
      | none =>
        match if hasLeadingZero s.toList then none else real? s with
        | some x => .real x
        | none => .text s

/-- Why a scalar does not fit where something else is expected.  A tag of its own that the text
    does not satisfy is the first complaint. -/
def mismatch (props : Properties) (style : ScalarStyle) (s expected : String) : Mismatch :=
  match props.tag with
  | none => .invalidType (if style = .plain then plainFound s else .text s) expected
  | some tag =>
    if tag = coreTag "bool" then
      match boolean? s with
      | some b => .invalidType (.boolean b) expected
      | none => .invalidValue (.text s) "a boolean"
    else if tag = coreTag "int" then
      match integer? s with
      | some found => .invalidType found expected
      | none => .invalidValue (.text s) "an integer"
    else if tag = coreTag "float" then
      match real? s with
      | some x => .invalidType (.real x) expected
      | none => .invalidValue (.text s) "a float"
    else if tag = coreTag "null" then
      if isNull s then .invalidType .null expected else .invalidValue (.text s) "null"
    -- A tag of the document's own says nothing about the type.
    else if tag.toList.head? = some '!' ∧ style = .plain then .invalidType (plainFound s) expected
    else .invalidType (.text s) expected

/-- Whether a scalar may be read as a number or truth value: it has no quotes, or it is literal
    and its tag says so. -/
def isOpen (props : Properties) (style : ScalarStyle) (typeName : String) : Bool :=
  style = .plain || (style = .literal && props.tag = some (coreTag typeName))

/-- Whether a scalar leaves an optional part out.  A scalar that claims to be nothing and is not
    does not fit. -/
def isAbsent (props : Properties) (style : ScalarStyle) (s : String) : Except Mismatch Bool :=
  if style ≠ .plain then .ok false
  else
    match props.tag with
    | none => .ok (s.isEmpty || isNull s)
    | some tag =>
      if tag = coreTag "null" then
        if isNull s then .ok true else .error (.invalidValue (.text s) "null")
      else .ok false

end Scalar

end MachineTuning.Yaml
