namespace MachineTuning

/-!
# Binary64 — numbers with 53 significant bits

Documents may hold numbers with a fraction or an exponent.  No field of a profile takes one,
but a message that refuses such a number shows it, so it is held as the binary64 number that it
denotes:

* `Binary64.nearest` — the number nearest to a rational, ties to the even mantissa;
* `Binary64.value` — the rational that a finite number stands for;
* `Binary64.ofDecimal?` — the reading of a digit sequence with an exponent.
-/

/-- A binary64 number.  A finite one is `± mantissa · 2 ^ exponent` with `mantissa < 2 ^ 53`; its
    exponent is the least that the format allows for its size. -/
inductive Binary64 where
  | finite (negative : Bool) (mantissa : Nat) (exponent : Int)
  | infinite (negative : Bool)
  | notANumber
  deriving DecidableEq

/-- The integer nearest to a rational; a half goes to the even neighbour. -/
def roundHalfEven (x : Rat) : Int :=
  let low := x.floor
  let rest := x - low
  if rest < 1 / 2 then low
  else if 1 / 2 < rest then low + 1
  else if low % 2 = 0 then low
  else low + 1

/-- The exponent of the largest power of two that a positive rational reaches. -/
def binade (x : Rat) : Int :=
  let guess : Int := (x.num.natAbs.log2 : Int) - x.den.log2
  if (2 : Rat) ^ guess ≤ x then guess else guess - 1

namespace Binary64

/-- Zero, with either sign. -/
def zero (negative : Bool) : Binary64 :=
  .finite negative 0 (-1074)

/-- The number nearest to `± x`, for `x` not negative; what is too large becomes infinite. -/
def nearest (negative : Bool) (x : Rat) : Binary64 :=
  if x = 0 then zero negative
  else
    let exponent := max (binade x - 52) (-1074)
    let mantissa := (roundHalfEven (x / (2 : Rat) ^ exponent)).natAbs
    -- Rounding up may carry into the next binade.
    let (mantissa, exponent) :=
      if mantissa = 0x20000000000000 then (0x10000000000000, exponent + 1) else (mantissa, exponent)
    if 971 < exponent then .infinite negative else .finite negative mantissa exponent

/-- The distance of a finite number from zero; zero for the others. -/
def magnitude : Binary64 → Rat
  | .finite _ mantissa exponent => mantissa * (2 : Rat) ^ exponent
  | _ => 0

/-- The same number with its sign set. -/
def withSign (negative : Bool) : Binary64 → Binary64
  | .finite _ mantissa exponent => .finite negative mantissa exponent
  | .infinite _ => .infinite negative
  | .notANumber => .notANumber

/-- The number nearest to `10 ^ power`. -/
def powerOfTen (power : Nat) : Binary64 :=
  nearest false ((10 : Rat) ^ power)

/-- A magnitude brought down by `power` decimal places, at most 308 at a time, each quotient
    rounded. -/
def scaleDown (x : Binary64) (power : Nat) : Binary64 :=
  if 308 < power then
    if x.magnitude = 0 then x
    else scaleDown (nearest false (x.magnitude / (powerOfTen 308).magnitude)) (power - 308)
  else nearest false (x.magnitude / (powerOfTen power).magnitude)
termination_by power
decreasing_by omega

/-- `± significand · 10 ^ exponent` in two roundings: the significand first, then its product
    with the rounded power of ten.  A product beyond the largest number is refused. -/
def ofDecimal? (negative : Bool) (significand : Nat) (exponent : Int) : Option Binary64 :=
  let start := nearest false significand
  match exponent with
  | .ofNat power =>
    if 308 < power then
      if significand = 0 then some (zero negative) else none
    else
      match nearest false (start.magnitude * (powerOfTen power).magnitude) with
      | .infinite _ => none
      | x => some (x.withSign negative)
  | .negSucc power => some ((scaleDown start (power + 1)).withSign negative)

end Binary64

end MachineTuning
