import MachineTuning.Number.Binary64

namespace MachineTuning

/-!
# Shortest decimals — the text of a binary64 number

`Binary64.shortest` finds the decimal with the fewest digits that reads back as the number, and
among those the nearest one.  Two layouts write it down: `Binary64.scientificText` changes to an
exponent outside of a middle range, `Binary64.positionalText` never does.
-/

/-- The decimal `digits · 10 ^ exponent`. -/
structure Decimal where
  digits : Nat
  exponent : Int

namespace Decimal

/-- The rational that a decimal stands for. -/
def value (d : Decimal) : Rat :=
  d.digits * (10 : Rat) ^ d.exponent

/-- The digits, most significant first. -/
def digitList (d : Decimal) : List Char :=
  Nat.toDigits 10 d.digits

/-- The exponent in scientific notation, with one digit in front of the point. -/
def leadingExponent (d : Decimal) : Int :=
  d.digitList.length - 1 + d.exponent

/-- All digits around a point; a whole number keeps a `.0`. -/
def positional (d : Decimal) : List Char :=
  let digits := d.digitList
  match d.exponent with
  | .ofNat zeros => digits ++ List.replicate zeros '0' ++ ['.', '0']
  | .negSucc n =>
    let places := n + 1
    if places < digits.length then
      digits.take (digits.length - places) ++ '.' :: digits.drop (digits.length - places)
    else ['0', '.'] ++ List.replicate (places - digits.length) '0' ++ digits

/-- One digit, the point and the others if there are any, then the exponent with its sign. -/
def scientific (d : Decimal) : List Char :=
  let fraction := d.digitList.drop 1
  let power := d.leadingExponent
  d.digitList.take 1 ++ (if fraction.isEmpty then [] else '.' :: fraction) ++
    ['e', if power < 0 then '-' else '+'] ++ Nat.toDigits 10 power.natAbs

/-- Zeros at the end of the digits moved into the exponent. -/
def trimmed (d : Decimal) : Decimal :=
  let zeros := (d.digitList.reverse.takeWhile (· == '0')).length
  if d.digits = 0 then ⟨0, 0⟩ else ⟨d.digits / Nat.pow 10 zeros, d.exponent + zeros⟩

end Decimal

/-- The exponent of the largest power of ten that a positive rational reaches. -/
def decade (x : Rat) : Int :=
  let num := x.num.natAbs
  if x.den ≤ num then (Nat.toDigits 10 (num / x.den)).length - 1
  else -(Nat.toDigits 10 ((x.den - 1) / num)).length

namespace Binary64

/-- Whether a rational rounds to the positive number `mantissa · 2 ^ exponent`: it lies no further
    away than halfway to each neighbour, and halfway counts when the mantissa is even. -/
def roundsTo (mantissa : Nat) (exponent : Int) (x : Rat) : Bool :=
  let quarter := (2 : Rat) ^ (exponent - 2)
  -- Below a power of two the numbers lie twice as close.
  let below : Nat := if mantissa = 0x10000000000000 ∧ -1074 < exponent then 1 else 2
  let low := ((4 * mantissa - below : Nat) : Rat) * quarter
  let high := ((4 * mantissa + 2 : Nat) : Rat) * quarter
  if mantissa % 2 = 0 then low ≤ x ∧ x ≤ high else low < x ∧ x < high

/-- The nearer of the two decimals with `count` digits around a positive number, if it reads
    back as the number. -/
def decimalOfLength? (mantissa : Nat) (exponent : Int) (count : Nat) : Option Decimal :=
  let x := mantissa * (2 : Rat) ^ exponent
  let unit := decade x - count + 1
  let below := (x / (10 : Rat) ^ unit).floor.natAbs
  let low : Decimal := ⟨below, unit⟩
  let high : Decimal := ⟨below + 1, unit⟩
  match roundsTo mantissa exponent low.value, roundsTo mantissa exponent high.value with
  | true, true =>
    -- Both read back: the nearer one, and the even one if neither is.
    let down := x - low.value
    let up := high.value - x
    some (if down < up ∨ (down = up ∧ below % 2 = 0) then low else high)
  | true, false => some low
  | false, true => some high
  | false, false => none

/-- The decimal with the fewest digits that reads back as `mantissa · 2 ^ exponent`; seventeen
    digits always do. -/
def shortest (mantissa : Nat) (exponent : Int) : Decimal :=
  if mantissa = 0 then ⟨0, 0⟩
  else (((List.range 17).findSome? fun n => decimalOfLength? mantissa exponent (n + 1)).getD
    ⟨0, 0⟩).trimmed

/-- A sign in front of the text of a magnitude. -/
def signed (negative : Bool) (text : List Char) : String :=
  String.ofList (if negative then '-' :: text else text)

/-- Positional for scientific exponents from -5 to 15 and scientific otherwise. -/
def scientificText : Binary64 → String
  | .finite negative mantissa exponent =>
    let d := shortest mantissa exponent
    signed negative <|
      if -5 ≤ d.leadingExponent ∧ d.leadingExponent ≤ 15 then d.positional else d.scientific
  | .infinite negative => signed negative "inf".toList
  | .notANumber => "NaN"

/-- Positional whatever the size. -/
def positionalText : Binary64 → String
  | .finite negative mantissa exponent => signed negative (shortest mantissa exponent).positional
  | .infinite negative => signed negative "inf".toList
  | .notANumber => "NaN"

end Binary64

end MachineTuning
