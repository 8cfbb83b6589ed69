namespace MachineTuning.Text

/-!
# Hexadecimal — digits of base sixteen

Escapes in quoted texts, documents and tags are written in hexadecimal.  `hexadecimal` writes
a number in lower case, `padded` brings any digits to a fixed width, `hexDigit?` and `hexValue?`
read them back.
-/

/-- A number in lower-case hexadecimal. -/
def hexadecimal (n : Nat) : List Char :=
  Nat.toDigits 16 n

/-- Digits brought to at least `width` by zeros in front. -/
def padded (width : Nat) (digits : List Char) : List Char :=
  List.replicate (width - digits.length) '0' ++ digits

/-- The value of a hexadecimal digit of either case. -/
def hexDigit? (c : Char) : Option Nat :=
  if '0' ≤ c ∧ c ≤ '9' then some (c.toNat - '0'.toNat)
  else if 'a' ≤ c ∧ c ≤ 'f' then some (c.toNat - 'a'.toNat + 10)
  else if 'A' ≤ c ∧ c ≤ 'F' then some (c.toNat - 'A'.toNat + 10)
  else none

/-- The number that a run of hexadecimal digits spells; the empty run spells zero. -/
def hexValue? (digits : List Char) : Option Nat :=
  digits.foldl (fun value? c => do some (16 * (← value?) + (← hexDigit? c))) (some 0)

end MachineTuning.Text
