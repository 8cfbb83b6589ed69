import MachineTuning.Proofs.Json.Scalar
import MachineTuning.Yaml.Scalar

namespace MachineTuning.Yaml.Scalar

/-!
# Scalars — integers read from what JSON writes

JSON writes an integer in decimal, without a plus and without zeros in front; `signed?` reads it
from that.
-/

section Digits

variable {digits : List Char}

/-- A decimal digit is a hexadecimal one of the same value. -/
theorem hexDigit?_of_isDigit {c : Char} (h : c.isDigit) :
    Text.hexDigit? c = some (c.toNat - '0'.toNat) ∧ c.toNat - '0'.toNat < 10 := by
  obtain ⟨hlower, hupper⟩ := Char.isDigit_iff_toNat.1 h
  have hrange : '0' ≤ c ∧ c ≤ '9' := ⟨hlower, hupper⟩
  have hnine : '9'.toNat - '0'.toNat < 10 := by decide
  exact ⟨by rw [Text.hexDigit?, if_pos hrange], by omega⟩

/-- Decimal digits spell their number. -/
theorem naturalIn?_ten (hne : digits ≠ []) (h : ∀ c ∈ digits, c.isDigit) :
    naturalIn? 10 digits = some (Nat.ofDigitChars 10 digits 0) := by
  have hfold (n : Nat) : digits.foldl (fun n? c => do
      let d ← Text.hexDigit? c
      if d < 10 then some (10 * (← n?) + d) else none) (some n) =
        some (Nat.ofDigitChars 10 digits n) := by
    clear hne
    induction digits generalizing n with
    | nil => rfl
    | cons c digits ih =>
      obtain ⟨hc, hdigits⟩ := List.forall_mem_cons.1 h
      obtain ⟨hdigit, hlt⟩ := hexDigit?_of_isDigit hc
      rw [List.foldl_cons, Nat.ofDigitChars_cons, ← ih hdigits]
      simp only [hdigit, hlt, Option.bind_eq_bind, Option.bind_some, if_true]
  rw [naturalIn?, if_neg (by simpa using hne), hfold]

/-- Digits alone have no mark for another base. -/
theorem marked?_of_forall_isDigit (h : ∀ c ∈ digits, c.isDigit) : marked? digits = none := by
  unfold marked?
  split
  · exact absurd (h 'x' (by simp)) (by decide)
  · exact absurd (h 'o' (by simp)) (by decide)
  · exact absurd (h 'b' (by simp)) (by decide)
  · rfl

/-- Digits have no sign. -/
theorem ne_cons_of_forall_isDigit (h : ∀ c ∈ digits, c.isDigit) {c : Char} (hc : c.isDigit = false)
    (cs : List Char) : digits ≠ c :: cs := by
  rintro rfl
  rw [h c List.mem_cons_self] at hc
  cases hc

/-- Digits without a zero in front have none behind a minus. -/
theorem not_hasLeadingZero_minus (hzero : ¬(digits.head? = some '0' ∧ 1 < digits.length)) :
    hasLeadingZero ('-' :: digits) = false := by
  rw [hasLeadingZero, Bool.and_eq_false_iff, Bool.and_eq_false_iff, decide_eq_false_iff_not,
    decide_eq_false_iff_not]
  exact .inl ((Classical.not_and_iff_not_or_not.1 hzero).symm)

/-- A minus is no digit. -/
theorem natural?_minus (hzero : ¬(digits.head? = some '0' ∧ 1 < digits.length)) :
    natural? ('-' :: digits) = none := by
  have hfold (cs : List Char) : cs.foldl (fun n? c => do
      let d ← Text.hexDigit? c
      if d < 10 then some (10 * (← n?) + d) else none) none = none := by
    induction cs with
    | nil => rfl
    | cons c cs ih =>
      rw [List.foldl_cons]
      cases Text.hexDigit? c <;> simpa using ih
  simp only [natural?, not_hasLeadingZero_minus hzero, naturalIn?]
  exact hfold digits

variable (h : ∀ c ∈ digits, c.isDigit) (hzero : ¬(digits.head? = some '0' ∧ 1 < digits.length))
include h hzero

/-- Digits without a zero in front have none. -/
theorem not_hasLeadingZero : hasLeadingZero digits = false := by
  unfold hasLeadingZero
  split
  · next cs => exact absurd rfl (ne_cons_of_forall_isDigit h rfl cs)
  · next cs => exact absurd rfl (ne_cons_of_forall_isDigit h rfl cs)
  · rw [Bool.and_eq_false_iff, Bool.and_eq_false_iff, decide_eq_false_iff_not,
      decide_eq_false_iff_not]
    exact .inl ((Classical.not_and_iff_not_or_not.1 hzero).symm)

variable (hne : digits ≠ [])
include hne

/-- Digits are read as a number. -/
theorem natural?_of_forall_isDigit : natural? digits = some (Nat.ofDigitChars 10 digits 0) := by
  unfold natural?
  split
  · next cs => exact absurd rfl (ne_cons_of_forall_isDigit h rfl cs)
  · simp only [marked?_of_forall_isDigit h, not_hasLeadingZero h hzero]
    exact naturalIn?_ten hne h

/-- Digits behind a minus are read as the number that is negated. -/
theorem negated?_of_forall_isDigit :
    negated? ('-' :: digits) = some (Nat.ofDigitChars 10 digits 0) := by
  rw [negated?, marked?_of_forall_isDigit h, not_hasLeadingZero_minus hzero]
  exact naturalIn?_ten hne h

end Digits

/-- A number that the bits hold is read from its digits. -/
theorem unsigned?_toDigits {bits n : Nat} (h : n < 1 <<< bits) :
    unsigned? bits (String.ofList (Nat.toDigits 10 n)) = some n := by
  have hdigits : ∀ c ∈ Nat.toDigits 10 n, c.isDigit := fun c hc =>
    Nat.isDigit_of_mem_toDigits (by decide) (by decide) hc
  rw [unsigned?, String.toList_ofList, natural?_of_forall_isDigit hdigits (Json.not_leadingZero n)
    Nat.toDigits_ne_nil, Nat.ofDigitChars_ten_toDigits]
  exact if_pos h

/-- **Integers are read from what JSON writes**, if a word of 64 bits holds them. -/
theorem signed?_integerChars {n : Int} (lower : -0x8000000000000000 ≤ n)
    (upper : n < 0x8000000000000000) :
    signed? (String.ofList (Json.integerChars n)) = some n := by
  cases n with
  | ofNat n =>
    have hbound : n < 1 <<< 63 := by
      have hvalue : 1 <<< 63 = 0x8000000000000000 := rfl
      have hn : (n : Int) < 0x8000000000000000 := upper
      omega
    rw [signed?, Json.integerChars, unsigned?_toDigits hbound]
    rfl
  | negSucc n =>
    have hdigits : ∀ c ∈ Nat.toDigits 10 (n + 1), c.isDigit := fun c hc =>
      Nat.isDigit_of_mem_toDigits (by decide) (by decide) hc
    have hread := negated?_of_forall_isDigit hdigits (Json.not_leadingZero (n + 1))
      Nat.toDigits_ne_nil
    rw [Nat.ofDigitChars_ten_toDigits] at hread
    -- A word without a sign is tried first, and the minus sign makes it fail.
    have hword : unsigned? 63 (String.ofList (Json.integerChars (.negSucc n))) = none := by
      rw [unsigned?, String.toList_ofList, Json.integerChars,
        natural?_minus (Json.not_leadingZero (n + 1))]
      rfl
    have hnegative : negative? 64 (String.ofList (Json.integerChars (.negSucc n))) =
        some (.negSucc n) := by
      have hbound : n + 1 ≤ 1 <<< (64 - 1) := by
        have hvalue : 1 <<< (64 - 1) = 0x8000000000000000 := rfl
        omega
      rw [negative?, String.toList_ofList, Json.integerChars, hread]
      exact if_pos hbound
    rw [signed?, hword, hnegative]

end MachineTuning.Yaml.Scalar
