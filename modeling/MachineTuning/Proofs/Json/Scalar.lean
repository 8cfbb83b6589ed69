import Mathlib.Data.List.Basic
import MachineTuning.Json.Parser
import MachineTuning.Json.Printer

namespace MachineTuning.Json

/-!
# JSON scalars — texts and integers read back

What the printer writes for a text or an integer is read as that text or integer, and what
stands behind it is left for the next reader.

* `text?_textChars` — texts, whatever characters they hold;
* `number?_toDigits` — integers that 64 bits hold, in front of anything that a number does not go
  on with.
-/

/-! ### Texts -/

/-- Whether all characters of a list are in a class is decided for one after the other, and not for
    all characters that there are. -/
instance decidableForallMemChar {p : Char → Prop} [DecidablePred p] (cs : List Char) :
    Decidable (∀ c ∈ cs, p c) :=
  List.decidableBAll p cs

/-- Four digits are read as a code unit whatever stands behind them. -/
theorem codeUnit?_append {digits : List Char} {unit : Nat}
    (h : codeUnit? digits = some (unit, [])) (rest : List Char) :
    codeUnit? (digits ++ rest) = some (unit, rest) := by
  match digits, h with
  | [], h => simp [codeUnit?] at h
  | [_], h => simp [codeUnit?] at h
  | [_, _], h => simp [codeUnit?] at h
  | [_, _, _], h => simp [codeUnit?] at h
  | a :: b :: c :: d :: tail, h =>
    simp only [codeUnit?, bind, Option.bind_eq_some_iff, Option.some.injEq, Prod.mk.injEq] at h
    obtain ⟨value, hvalue, rfl, rfl⟩ := h
    simp [codeUnit?, hvalue]

/-- The four digits of a control spell its number. -/
theorem codeUnit?_padded_hexadecimal :
    ∀ n < 0x20, codeUnit? (Text.padded 4 (Text.hexadecimal n)) = some (n, []) := by
  decide

/-- A control is read from its escape. -/
theorem unicodeEscape?_control {c : Char} (h : c.toNat < 0x20) (rest : List Char) :
    unicodeEscape? (Text.padded 4 (Text.hexadecimal c.toNat) ++ rest) = some (c, rest) := by
  have hunit := codeUnit?_append (codeUnit?_padded_hexadecimal c.toNat h) rest
  -- A control is no half of a pair, so the reader does not go on to a second unit.
  have hhigh : ¬(0xD800 ≤ c.toNat ∧ c.toNat < 0xDC00) := by omega
  have hlow : ¬(0xDC00 ≤ c.toNat ∧ c.toNat < 0xE000) := by omega
  rw [unicodeEscape?, hunit]
  simp [hhigh, hlow]

/-- An escape inside a text is one character of it. -/
theorem textBody?_escape (fuel : Nat) {c : Char} {escape rest : List Char}
    (h : escape? (escape ++ rest) = some (c, rest)) :
    textBody? (fuel + 1) ('\\' :: escape ++ rest) =
      (textBody? fuel rest).map fun (body, cs) => (c :: body, cs) := by
  simp only [List.cons_append, textBody?, h, Char.reduceEq, if_false, if_true,
    Option.bind_eq_bind, Option.bind_some]
  cases textBody? fuel rest <;> rfl

/-- The characters that are escaped by a letter or by themselves. -/
def lettered : List Char :=
  ['"', '\\', '\x08', '\t', '\n', '\x0c', '\r']

/-- The characters that are escaped by a letter, spelled out. -/
theorem mem_lettered_iff {c : Char} :
    c ∈ lettered ↔
      c = '"' ∨ c = '\\' ∨ c = '\x08' ∨ c = '\t' ∨ c = '\n' ∨ c = '\x0c' ∨ c = '\r' := by
  simp only [lettered, List.mem_cons, List.not_mem_nil, or_false]

/-- Any other character is escaped by its number if it is a control, and stands for itself if
    not. -/
theorem escapedChar_of_not_mem {c : Char} (h : c ∉ lettered) :
    escapedChar c =
      if c.toNat < 0x20 then '\\' :: 'u' :: Text.padded 4 (Text.hexadecimal c.toNat) else [c] := by
  simp only [mem_lettered_iff, not_or] at h
  obtain ⟨hquote, hslash, hb, ht, hn, hf, hr⟩ := h
  rw [escapedChar, if_neg hquote, if_neg hslash, if_neg hb, if_neg ht, if_neg hn, if_neg hf,
    if_neg hr]

/-- One character of a text is read from what is written for it. -/
theorem textBody?_escapedChar (fuel : Nat) (c : Char) (rest : List Char) :
    textBody? (fuel + 1) (escapedChar c ++ rest) =
      (textBody? fuel rest).map fun (body, cs) => (c :: body, cs) := by
  by_cases hletter : c ∈ lettered
  · rcases mem_lettered_iff.1 hletter with rfl | rfl | rfl | rfl | rfl | rfl | rfl <;>
      exact textBody?_escape fuel rfl
  · rw [escapedChar_of_not_mem hletter]
    split
    · next hcontrol => exact textBody?_escape fuel (unicodeEscape?_control hcontrol rest)
    · next hcontrol =>
      obtain ⟨hquote, hletter⟩ := not_or.1 (mem_lettered_iff.not.1 hletter)
      obtain ⟨hslash, -⟩ := not_or.1 hletter
      simp only [List.singleton_append, textBody?, hquote, hslash, hcontrol, if_false]
      cases textBody? fuel rest <;> rfl

/-- An escape starts with a backslash. -/
theorem escapedChar_eq_cons (c : Char) :
    ∃ d ds, escapedChar c = d :: ds ∧ (d = c ∨ d = '\\') := by
  by_cases hletter : c ∈ lettered
  · have hhead : ∀ c ∈ lettered, (escapedChar c).head? = some '\\' := by decide
    obtain ⟨ds, heq⟩ := List.head?_eq_some_iff.1 (hhead c hletter)
    exact ⟨_, ds, heq, .inr rfl⟩
  · rw [escapedChar_of_not_mem hletter]
    split
    · exact ⟨_, _, rfl, .inr rfl⟩
    · exact ⟨_, _, rfl, .inl rfl⟩

/-- Escapes do not make a text shorter. -/
theorem length_le_length_escaped (cs : List Char) :
    cs.length ≤ (cs.flatMap escapedChar).length := by
  induction cs with
  | nil => exact Nat.zero_le _
  | cons c cs ih =>
    obtain ⟨d, ds, heq, -⟩ := escapedChar_eq_cons c
    rw [List.flatMap_cons, heq, List.length_append, List.length_cons, List.length_cons]
    omega

/-- The characters of a text are read up to the closing quote. -/
theorem textBody?_escaped {fuel : Nat} {cs : List Char} (h : cs.length < fuel) (rest : List Char) :
    textBody? fuel (cs.flatMap escapedChar ++ '"' :: rest) = some (cs, rest) := by
  induction cs generalizing fuel with
  | nil =>
    obtain ⟨fuel, rfl⟩ := Nat.exists_eq_succ_of_ne_zero (Nat.ne_of_gt h)
    simp [textBody?]
  | cons c cs ih =>
    rw [List.length_cons] at h
    obtain ⟨fuel, rfl⟩ := Nat.exists_eq_succ_of_ne_zero (Nat.ne_of_gt (Nat.zero_lt_of_lt h))
    rw [List.flatMap_cons, List.append_assoc, textBody?_escapedChar, ih (by omega)]
    rfl

/-- **Texts read back.**  Behind the opening quote, a text is what was written. -/
theorem text?_textChars (s : String) (rest : List Char) :
    text? (s.toList.flatMap escapedChar ++ '"' :: rest) = some (s, rest) := by
  -- The reader allows a step for each character of the escaped text, which is no shorter.
  have hlength : s.toList.length < (s.toList.flatMap escapedChar ++ '"' :: rest).length + 1 := by
    have hle := length_le_length_escaped s.toList
    rw [List.length_append]
    omega
  rw [text?, textBody?_escaped hlength]
  simp

/-! ### Integers -/

/-- Nothing that continues a number stands in front. -/
def EndsNumber (cs : List Char) : Prop :=
  ∀ c ∈ cs.head?, ¬(c.isDigit ∨ c = '.' ∨ c = 'e' ∨ c = 'E')

/-- A number may stand at the end of a text. -/
theorem endsNumber_nil : EndsNumber [] := by
  simp [EndsNumber]

/-- A number ends in front of a character that could not continue it. -/
theorem endsNumber_cons {c : Char} (h : ¬(c.isDigit ∨ c = '.' ∨ c = 'e' ∨ c = 'E'))
    (cs : List Char) : EndsNumber (c :: cs) := by
  simpa [EndsNumber] using h

/-- Decimal digits are read as the number that they were made of. -/
theorem decimalFrom_toDigits (n : Nat) : decimalFrom 0 (Nat.toDigits 10 n) = n :=
  Nat.ofDigitChars_ten_toDigits

/-- A digit above zero is not the character zero. -/
theorem digitChar_ne_zero : ∀ n < 10, 0 < n → n.digitChar ≠ '0' := by decide

/-- Only zero starts with the digit zero. -/
theorem head?_toDigits_ne {n : Nat} (h : 0 < n) : (Nat.toDigits 10 n).head? ≠ some '0' := by
  induction n using Nat.strongRecOn with
  | ind n ih =>
    -- The first digit of `n` is that of `n / 10`, which is positive unless `n` is one digit.
    by_cases hlt : n < 10
    · rw [Nat.toDigits_of_lt_base hlt]
      exact fun hhead => digitChar_ne_zero n hlt h (Option.some.inj hhead)
    · rw [Nat.toDigits_of_base_le (by decide) (by omega),
        List.head?_append_of_ne_nil _ Nat.toDigits_ne_nil]
      exact ih (n / 10) (by omega) (by omega)

/-- The digits of a number have no zero in front. -/
theorem not_leadingZero (n : Nat) :
    ¬((Nat.toDigits 10 n).head? = some '0' ∧ 1 < (Nat.toDigits 10 n).length) := by
  rintro ⟨hhead, hlength⟩
  rcases Nat.eq_zero_or_pos n with rfl | hpos
  · simp at hlength
  · exact head?_toDigits_ne hpos hhead

/-- Digits in front of nothing that continues a number are read as an integer. -/
theorem number?_toDigits (negative : Bool) (n : Nat) {rest : List Char} (hrest : EndsNumber rest) :
    number? negative (Nat.toDigits 10 n ++ rest) =
      (integer? negative (Nat.toDigits 10 n)).map fun v => (v, rest) := by
  have hdigits : ∀ c ∈ Nat.toDigits 10 n, c.isDigit := fun c hc =>
    Nat.isDigit_of_mem_toDigits (by decide) (by decide) hc
  have htake : rest.takeWhile Char.isDigit = [] := by
    cases rest with
    | nil => rfl
    | cons c cs => simp_all [EndsNumber]
  have hdrop : rest.dropWhile Char.isDigit = rest := by
    cases rest with
    | nil => rfl
    | cons c cs => simp_all [EndsNumber]
  have hwhole : (Nat.toDigits 10 n ++ rest).takeWhile Char.isDigit = Nat.toDigits 10 n := by
    rw [List.takeWhile_append_of_pos hdigits, htake, List.append_nil]
  have hbehind : (Nat.toDigits 10 n ++ rest).dropWhile Char.isDigit = rest := by
    rw [List.dropWhile_append_of_pos hdigits, hdrop]
  have hzero := not_leadingZero n
  -- The digits are cut off exactly; what is behind them is neither a point nor an exponent.
  unfold number?
  rw [hwhole, hbehind]
  cases rest with
  | nil =>
    cases hinteger : integer? negative (Nat.toDigits 10 n) <;>
      simp [hzero, number?.finish, hinteger, Nat.toDigits_ne_nil]
  | cons c cs =>
    obtain ⟨hdigit, hpoint, he, hE⟩ : c.isDigit = false ∧ c ≠ '.' ∧ c ≠ 'e' ∧ c ≠ 'E' := by
      simpa [EndsNumber] using hrest
    cases hinteger : integer? negative (Nat.toDigits 10 n) <;>
      simp [hzero, number?.finish, hpoint, he, hE, hinteger, Nat.toDigits_ne_nil]

end MachineTuning.Json
