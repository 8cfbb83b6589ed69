import MachineTuning.Proofs.Yaml.QuotedText
import MachineTuning.Yaml.Printer

namespace MachineTuning.Yaml

/-!
# Quoted texts — what YAML writes between quotes is read back

Between double quotes everything that a reader could mistake is escaped.  Between single quotes the
two separators stand as they are, and the line behind one is indented so that folding takes the
indentation away again.

* `QuotedScalar.Reads` — reading up to the closing quote, with rules for each kind of character;
* `QuotedScalar.take?_doubleQuotedChars`, `QuotedScalar.take?_singleQuotedChars` — what is written
  in each style is read as it was.
-/

/-! ### Escapes -/

/-- An escape, behind its backslash, stands for a character by its letter or by its digits. -/
def isEscapeOf (c : Char) : List Char → Bool
  | [] => false
  | letter :: digits =>
    (if digits.isEmpty then QuotedScalar.simpleEscape? letter = some c
      else QuotedScalar.simpleEscape? letter = none &&
        QuotedScalar.escapeWidth? letter = some digits.length &&
        Text.hexValue? digits = some c.toNat) &&
      (letter :: digits).all (!isBreak ·)

/-- A character is written with an escape. -/
def isEscaped (c : Char) : Bool :=
  !Style.isPrintable c || isBreak c || c = '"' || c = '\\'

/-- What is written for a character between double quotes. -/
def shownChars (c : Char) : List Char :=
  if isEscaped c then escapeChars c else [c]

/-- The code points of the characters that are written with escapes. -/
def escapedCodes : List Nat :=
  List.range 0x20 ++ (List.range 0x21).map (0x7F + ·) ++
    [0x22, 0x5C, 0x2028, 0x2029, 0xFEFF, 0xFFFE, 0xFFFF]

/-- The code of an escaped character is listed. -/
theorem toNat_mem_escapedCodes {c : Char} (h : isEscaped c) : c.toNat ∈ escapedCodes := by
  have hvalid : c.toNat < 0xD800 ∨ 0xDFFF < c.toNat ∧ c.toNat < 0x110000 := c.valid
  simp only [escapedCodes, List.mem_append, List.mem_range, List.mem_map, List.mem_cons,
    List.not_mem_nil, or_false]
  by_cases hprintable : Style.isPrintable c
  · -- What can be printed is escaped only if it breaks a line or ends the text.
    simp only [isEscaped, hprintable, isBreak, Bool.not_true, Bool.false_or, Bool.or_eq_true,
      decide_eq_true_eq] at h
    rcases h with (((((rfl | rfl) | rfl) | rfl) | rfl) | rfl) | rfl <;> decide
  · simp only [Style.isPrintable, Bool.or_eq_true, Bool.and_eq_true, decide_eq_true_eq,
      not_or, not_and, Nat.not_le] at hprintable
    by_cases hcontrol : c.toNat < 0x20
    · exact .inl (.inl hcontrol)
    · by_cases hdelete : 0x7F ≤ c.toNat ∧ c.toNat < 0xA0
      · exact .inl (.inr ⟨c.toNat - 0x7F, by omega, by omega⟩)
      · omega

/-- What is not escaped and no space is an ordinary character between double quotes. -/
theorem not_isEscaped {c : Char} (h : ¬isEscaped c) (hc : c ≠ ' ') :
    isBlank c = false ∧ isBreak c = false ∧ c ≠ '"' ∧ c ≠ '\\' := by
  simp only [isEscaped, Bool.or_eq_true, Bool.not_eq_true', decide_eq_true_eq, not_or,
    Bool.not_eq_true, Bool.not_eq_false] at h
  obtain ⟨⟨⟨hprintable, hbreak⟩, hquote⟩, hslash⟩ := h
  have htab : c ≠ '\t' := by
    rintro rfl
    cases hprintable
  exact ⟨by simp [isBlank, hc, htab], hbreak, hquote, hslash⟩

/-- An escaped character is written with a backslash, in at most four times its bytes. -/
theorem isEscapeOf_escapeChars {c : Char} (h : isEscaped c) : ∃ escape,
    escapeChars c = '\\' :: escape ∧ isEscapeOf c escape ∧
      Text.byteLength (escapeChars c) ≤ 4 * c.utf8Size := by
  have hcodes : ∀ n ∈ escapedCodes,
      escapeChars (Char.ofNat n) = '\\' :: (escapeChars (Char.ofNat n)).tail ∧
        isEscapeOf (Char.ofNat n) (escapeChars (Char.ofNat n)).tail ∧
        Text.byteLength (escapeChars (Char.ofNat n)) ≤ 4 * (Char.ofNat n).utf8Size := by
    decide
  obtain ⟨hcons, hescape, hlength⟩ := hcodes _ (toNat_mem_escapedCodes h)
  rw [Char.ofNat_toNat] at hcons hescape hlength
  exact ⟨_, hcons, hescape, hlength⟩

/-! ### Runs of spaces and breaks -/

/-- Spaces, or breaks that stand for themselves where the next line is indented. -/
def IsRun (indent : Nat) (run : List Char) : Prop :=
  (∀ c ∈ run, c = ' ') ∨ 0 < indent ∧ ∀ c ∈ run, isSeparator c

/-- A run as it is written: behind a break stands the indentation of the next line. -/
def writtenRun (indent : Nat) (run : List Char) : List Char :=
  run ++ if run.getLast?.any isBreak then indentation indent else []

section Runs

variable {indent : Nat} {run : List Char}

/-- Indentation is made of spaces. -/
theorem mem_indentation {c : Char} (h : c ∈ indentation indent) : c = ' ' :=
  List.eq_of_mem_replicate h

/-- Spaces do not end with a line break. -/
theorem getLast?_any_isBreak_of_spaces (h : ∀ c ∈ run, c = ' ') :
    run.getLast?.any isBreak = false := by
  cases hlast : run.getLast? with
  | none => rfl
  | some c => rw [h c (List.mem_of_getLast? hlast)]; rfl

/-- Separators end with a line break. -/
theorem getLast?_any_isBreak_of_separators (hne : run ≠ []) (h : ∀ c ∈ run, isSeparator c) :
    run.getLast?.any isBreak = true := by
  rw [List.getLast?_eq_some_getLast hne]
  exact isBreak_of_isSeparator (h _ (List.getLast_mem hne))

/-- Something is written for a run. -/
theorem writtenRun_ne_nil (hne : run ≠ []) : writtenRun indent run ≠ [] :=
  List.append_ne_nil_of_left_ne_nil hne _

/-- Spaces are written as they are. -/
theorem writtenRun_spaces (h : ∀ c ∈ run, c = ' ') : writtenRun indent run = run := by
  rw [writtenRun, getLast?_any_isBreak_of_spaces h, if_neg (by decide), List.append_nil]

/-- What is written for a run is a raw gap. -/
theorem IsRun.isRawGap (h : IsRun indent run) : ∀ c ∈ writtenRun indent run, isRawGap c := by
  intro c hc
  apply isRawGap_iff.2
  rcases List.mem_append.1 hc with hc | hc
  · rcases h with h | ⟨-, h⟩
    · exact .inl (h c hc)
    · exact .inr (.inr (h c hc))
  · split at hc
    · exact .inl (mem_indentation hc)
    · cases hc

/-- A run is folded into what it was. -/
theorem IsRun.folded_ofRaw (h : IsRun indent run) :
    (Gap.ofRaw (writtenRun indent run)).folded = run := by
  -- Spaces are kept as blanks; separators are kept as breaks, and the indentation behind them is
  -- not.
  rcases h with h | ⟨-, h⟩
  · have hblank : ∀ c ∈ run, isBlank c := fun c hc => by rw [h c hc]; rfl
    have hbreak : run.filter isBreak = [] :=
      List.filter_eq_nil_iff.2 fun c hc => by rw [h c hc]; decide
    rw [writtenRun, getLast?_any_isBreak_of_spaces h, if_neg (by decide), List.append_nil,
      Gap.ofRaw, List.takeWhile_eq_self_iff.2 hblank, hbreak]
    rfl
  · cases run with
    | nil => rfl
    | cons c run =>
      have hc : isSeparator c = true := h c List.mem_cons_self
      have hblank : isBlank c = false := by rcases isSeparator_iff.1 hc with rfl | rfl <;> rfl
      have hkept : (c :: run).filter isBreak = c :: run :=
        List.filter_eq_self.2 fun d hd => isBreak_of_isSeparator (h d hd)
      have hindent : (indentation indent).filter isBreak = [] :=
        List.filter_eq_nil_iff.2 fun d hd => by rw [mem_indentation hd]; decide
      have hself : (c :: run).map breakChar = c :: run :=
        (List.map_congr_left fun d hd => breakChar_of_isSeparator (h d hd)).trans (List.map_id _)
      have hline : c ≠ '\n' := by rintro rfl; cases hc
      rw [writtenRun, getLast?_any_isBreak_of_separators (List.cons_ne_nil c run) h, if_pos rfl,
        Gap.ofRaw, List.filter_append, hkept, hindent, List.append_nil, hself, List.cons_append,
        List.takeWhile_cons_of_neg (by simp [hblank])]
      simp [Gap.folded, Gap.foldedBreaks, hline]

/-- The characters that may stand next to each other between single quotes: a reader would lose
    spaces beside breaks. -/
def IsApart (a b : Char) : Prop :=
  ¬(isSeparator a ∧ b = ' ') ∧ ¬(a = ' ' ∧ isSeparator b)

/-- A character that single quotes can hold: of blanks and breaks only the space, and the two
    separators where the next line is indented. -/
def IsQuotable (indent : Nat) (c : Char) : Prop :=
  (isBlank c → c = ' ') ∧ (isBreak c → 0 < indent ∧ isSeparator c)

/-- A run goes on with a character that may stand there. -/
theorem IsRun.concat {c : Char} (h : IsRun indent run) (hc : c = ' ' ∨ 0 < indent ∧ isSeparator c)
    (hjoin : ∀ a ∈ run.getLast?, IsApart a c) : IsRun indent (run ++ [c]) := by
  rcases List.eq_nil_or_concat' run with rfl | ⟨run, a, rfl⟩
  · rcases hc with rfl | ⟨hindent, hc⟩
    · exact .inl (by simp)
    · exact .inr ⟨hindent, by simpa using hc⟩
  · obtain ⟨hspace, hbreak⟩ := hjoin a (List.getLast?_concat)
    have ha : a ∈ run ++ [a] := List.mem_append_right _ List.mem_cons_self
    rcases h with h | ⟨hindent, h⟩
    · have hsame : c = ' ' := hc.resolve_right fun hc => hbreak ⟨h a ha, hc.2⟩
      exact .inl (List.forall_mem_append.2 ⟨h, by simpa using hsame⟩)
    · have hsame : isSeparator c = true :=
        (hc.resolve_left fun hc => hspace ⟨h a ha, hc⟩).2
      exact .inr ⟨hindent, List.forall_mem_append.2 ⟨h, by simpa using hsame⟩⟩

/-- In front of a space no run ends with a break. -/
theorem IsRun.getLast?_any_isBreak (h : IsRun indent run)
    (hjoin : ∀ a ∈ run.getLast?, IsApart a ' ') : run.getLast?.any isBreak = false := by
  rcases h with h | ⟨-, h⟩
  · exact getLast?_any_isBreak_of_spaces h
  · rcases List.eq_nil_or_concat' run with rfl | ⟨run, a, rfl⟩
    · rfl
    · have ha : isSeparator a := h a (List.mem_append_right _ List.mem_cons_self)
      exact absurd ⟨ha, rfl⟩ (hjoin a List.getLast?_concat).1

/-- No marker between documents stands behind a run, because a space does. -/
theorem IsRun.atDocumentBorder (h : IsRun indent run) (hne : run ≠ []) (behind : List Char)
    (m : Mark) : Cursor.atDocumentBorder ⟨behind, m.after (writtenRun indent run)⟩ = false := by
  have hspace : (writtenRun indent run).getLast?.any isBreak = false := by
    rcases h with h | ⟨hindent, h⟩
    · have hlast := getLast?_any_isBreak_of_spaces h
      rwa [writtenRun, hlast, if_neg (by decide), List.append_nil]
    · have hlast := getLast?_any_isBreak_of_separators hne h
      obtain ⟨indent, rfl⟩ := Nat.exists_eq_succ_of_ne_zero (Nat.ne_of_gt hindent)
      rw [writtenRun, hlast, if_pos rfl, indentation, List.replicate_succ', ← List.append_assoc,
        List.getLast?_concat]
      rfl
  have hcolumn : (m.after (writtenRun indent run)).column ≠ 0 := by
    rw [ne_eq, Mark.column_after_eq_zero_iff m (writtenRun_ne_nil hne), hspace]
    decide
  simp [Cursor.atDocumentBorder, Cursor.atIndicator, hcolumn]

end Runs

/-! ### Reading up to the closing quote -/

namespace QuotedScalar

/-- With an allowance for more than `n` steps, a text is read, and this is the place behind it. -/
def Reads (double : Bool) (n : Nat) (cur : Cursor) (text : List Char) (behind : Cursor) : Prop :=
  ∀ fuel, n < fuel → body? double fuel cur = some (text, behind)

section Reads

variable {double : Bool} {n : Nat} {rest text run : List Char} {m : Mark} {after : Cursor}
  {indent : Nat} {c : Char}

/-- More steps read as much. -/
theorem Reads.mono {k : Nat} {cur : Cursor} (h : Reads double n cur text after) (hle : n ≤ k) :
    Reads double k cur text after :=
  fun fuel hfuel => h fuel (by omega)

/-- A double quote ends the text. -/
theorem reads_doubleQuote : Reads true 0 ⟨'"' :: rest, m⟩ [] ⟨rest, m.next '"'⟩ := by
  intro fuel hfuel
  obtain ⟨fuel, rfl⟩ := Nat.exists_eq_succ_of_ne_zero (Nat.ne_of_gt hfuel)
  exact body?_quote

/-- A single quote closes a text unless another one follows. -/
theorem reads_singleQuote (hrest : rest.head? ≠ some '\'') :
    Reads false 0 ⟨'\'' :: rest, m⟩ [] ⟨rest, m.next '\''⟩ := by
  intro fuel hfuel
  obtain ⟨fuel, rfl⟩ := Nat.exists_eq_succ_of_ne_zero (Nat.ne_of_gt hfuel)
  simp [body?, isBlank, isBreak, Cursor.skip, hrest]

/-- A run is read in one step. -/
theorem Reads.behindRun (h : Reads double n ⟨rest, m.after (writtenRun indent run)⟩ text after)
    (hrun : IsRun indent run) (hrest : atGap rest = false) :
    Reads double (n + run.length) ⟨writtenRun indent run ++ rest, m⟩ (run ++ text) after := by
  intro fuel hfuel
  by_cases hne : run = []
  · subst hne
    exact h fuel hfuel
  · have hlength := List.length_pos_of_ne_nil hne
    obtain ⟨fuel, rfl⟩ := Nat.exists_eq_succ_of_ne_zero (Nat.ne_of_gt (Nat.zero_lt_of_lt hfuel))
    rw [body?_raw (writtenRun_ne_nil hne) hrun.isRawGap hrest, hrun.atDocumentBorder hne,
      if_neg (by decide), h fuel (by omega), hrun.folded_ofRaw]
    rfl

/-- A character that is no gap, no quote and no backslash stands for itself. -/
theorem Reads.plain (h : Reads double n ⟨rest, m.next c⟩ text after) (hblank : isBlank c = false)
    (hbreak : isBreak c = false) (hquote : c ≠ if double then '"' else '\'')
    (hslash : double = true → c ≠ '\\') :
    Reads double (n + 1) ⟨c :: rest, m⟩ (c :: text) after := by
  intro fuel hfuel
  obtain ⟨fuel, rfl⟩ := Nat.exists_eq_succ_of_ne_zero (Nat.ne_of_gt (Nat.zero_lt_of_lt hfuel))
  rw [body?]
  simp only [hblank, hbreak, hquote, Bool.false_eq_true, or_self, if_false]
  rw [if_neg (not_and.2 hslash), Cursor.skip, Cursor.skip, h fuel (by omega)]
  rfl

/-- An escaped character is read from its escape. -/
theorem escape?_of_isEscapeOf {letter : Char} {digits : List Char}
    (h : isEscapeOf c (letter :: digits)) (rest : List Char) (m : Mark) :
    escape? ⟨letter :: digits ++ rest, m⟩ = some (c, ⟨rest, m.after (letter :: digits)⟩) := by
  simp only [isEscapeOf, Bool.and_eq_true, List.all_eq_true, Bool.not_eq_true'] at h
  obtain ⟨hvalue, hbreaks⟩ := h
  have hskip := Cursor.skip_append hbreaks rest m
  -- Escapes of one letter are looked up; the others name a number of digits, which spell the
  -- character.
  cases digits with
  | nil =>
    have hletter : simpleEscape? letter = some c := by simpa using hvalue
    have hskip : Cursor.skip 1 ⟨letter :: rest, m⟩ = ⟨rest, m.after [letter]⟩ := hskip
    simp [escape?, hletter, hskip]
  | cons digit digits =>
    simp only [List.isEmpty_cons, Bool.false_eq_true, if_false, Bool.and_eq_true,
      decide_eq_true_eq] at hvalue
    obtain ⟨⟨hletter, hwidth⟩, hnumber⟩ := hvalue
    have hdigits : ((digit :: digits) ++ rest).take (digit :: digits).length =
        digit :: digits := List.take_left
    have hvalid : c.toNat.isValidChar := c.valid
    rw [List.length_cons] at hskip
    rw [escape?]
    simp only [List.cons_append, List.head?_cons, Option.bind_eq_bind, Option.bind_some,
      hletter, hwidth, List.drop_succ_cons, List.drop_zero]
    rw [← List.cons_append, hdigits, hnumber]
    simp only [Option.bind_some, true_and, hvalid, if_true, Char.ofNat_toNat]
    rw [← List.cons_append, hskip]

/-- An escape stands for its character. -/
theorem Reads.escape {escape : List Char}
    (h : Reads true n ⟨rest, m.after ('\\' :: escape)⟩ text after)
    (hescape : isEscapeOf c escape) :
    Reads true (n + 1) ⟨'\\' :: escape ++ rest, m⟩ (c :: text) after := by
  intro fuel hfuel
  obtain ⟨fuel, rfl⟩ := Nat.exists_eq_succ_of_ne_zero (Nat.ne_of_gt (Nat.zero_lt_of_lt hfuel))
  cases escape with
  | nil => cases hescape
  | cons letter digits =>
    have hbreaks : ∀ d ∈ letter :: digits, isBreak d = false := by
      have hall := hescape
      rw [isEscapeOf, Bool.and_eq_true, List.all_eq_true] at hall
      simpa using hall.2
    rw [body?_escape hbreaks (escape?_of_isEscapeOf hescape rest), h fuel (by omega)]
    rfl

/-- A quote between single quotes is doubled. -/
theorem Reads.doubledQuote (h : Reads false n ⟨rest, m.after ['\'', '\'']⟩ text after) :
    Reads false (n + 1) ⟨'\'' :: '\'' :: rest, m⟩ ('\'' :: text) after := by
  intro fuel hfuel
  obtain ⟨fuel, rfl⟩ := Nat.exists_eq_succ_of_ne_zero (Nat.ne_of_gt (Nat.zero_lt_of_lt hfuel))
  have hskip : Cursor.skip 2 ⟨'\'' :: '\'' :: rest, m⟩ = ⟨rest, m.after ['\'', '\'']⟩ := rfl
  have hread := h fuel (by omega)
  simp [body?, show isBlank '\'' = false from rfl, show isBreak '\'' = false from rfl, hskip, hread]

/-! ### Between double quotes -/

/-- A character that was shown in double quotes is read in front of the rest. -/
theorem Reads.shown (h : Reads true n ⟨rest, m.after (shownChars c)⟩ text after) (hc : c ≠ ' ') :
    Reads true (n + 1) ⟨shownChars c ++ rest, m⟩ (c :: text) after := by
  by_cases hescaped : isEscaped c
  · obtain ⟨escape, hcons, hescape, -⟩ := isEscapeOf_escapeChars hescaped
    rw [shownChars, if_pos hescaped, hcons] at h ⊢
    exact h.escape hescape
  · obtain ⟨hblank, hbreak, hquote, hslash⟩ := not_isEscaped hescaped hc
    rw [shownChars, if_neg hescaped, Mark.after_cons_of_not_isBreak m hbreak] at h
    rw [shownChars, if_neg hescaped]
    exact h.plain hblank hbreak hquote fun _ => hslash

/-- Something is shown for every character. -/
theorem shownChars_ne_nil (c : Char) : shownChars c ≠ [] := by
  unfold shownChars
  split
  · next h =>
    obtain ⟨escape, hcons, -⟩ := isEscapeOf_escapeChars h
    rw [hcons]
    exact List.cons_ne_nil _ _
  · exact List.cons_ne_nil _ _

/-- What is shown for a character other than a space is no gap. -/
theorem atGap_shownChars (hc : c ≠ ' ') (rest : List Char) :
    atGap (shownChars c ++ rest) = false := by
  unfold shownChars
  split
  · next h =>
    obtain ⟨escape, hcons, -⟩ := isEscapeOf_escapeChars h
    rw [hcons]
    rfl
  · next h =>
    obtain ⟨hblank, hbreak, -⟩ := not_isEscaped h hc
    simp [atGap, hblank, hbreak]

/-- Spaces and what is written behind them are read up to the quote. -/
theorem reads_flatMap_shownChars {spaces cs : List Char} (hspaces : ∀ c ∈ spaces, c = ' ')
    (m : Mark) :
    Reads true (spaces.length + cs.length) ⟨spaces ++ (cs.flatMap shownChars ++ '"' :: rest), m⟩
      (spaces ++ cs) ⟨rest, m.after (spaces ++ (cs.flatMap shownChars ++ ['"']))⟩ := by
  -- The spaces are those of the gap in progress; they are read with the character behind it.
  have hwritten : writtenRun 0 spaces = spaces := writtenRun_spaces hspaces
  induction cs generalizing spaces m with
  | nil =>
    have hquote : Reads true 0 ⟨'"' :: rest, m.after (writtenRun 0 spaces)⟩ []
        ⟨rest, m.after (spaces ++ ['"'])⟩ := by
      rw [hwritten, Mark.after_append]
      exact reads_doubleQuote
    have hrun := hquote.behindRun (.inl hspaces) rfl
    rw [hwritten, Nat.zero_add] at hrun
    exact hrun
  | cons c cs ih =>
    by_cases hc : c = ' '
    · subst hc
      have hmore : ∀ c ∈ spaces ++ [' '], c = ' ' :=
        List.forall_mem_append.2 ⟨hspaces, by simp⟩
      have h := ih hmore m (writtenRun_spaces hmore)
      have hspace : isEscaped ' ' = false := rfl
      simpa [shownChars, hspace, Nat.add_comm, Nat.add_left_comm] using h
    · have hchar : Reads true (cs.length + 1)
          ⟨shownChars c ++ (cs.flatMap shownChars ++ '"' :: rest), m.after (writtenRun 0 spaces)⟩
          (c :: cs) ⟨rest, m.after (spaces ++ ((c :: cs).flatMap shownChars ++ ['"']))⟩ := by
        have hcs := @ih [] nofun ((m.after spaces).after (shownChars c)) rfl
        rw [hwritten]
        apply Reads.shown _ hc
        simpa only [List.length_nil, Nat.zero_add, List.nil_append, List.flatMap_cons,
          Mark.after_append] using hcs
      have hrun := hchar.behindRun (.inl hspaces) (atGap_shownChars hc _)
      rw [hwritten, ← List.append_assoc (shownChars c), ← List.flatMap_cons] at hrun
      rw [List.length_cons, Nat.add_comm]
      exact hrun

/-- **A text between double quotes** is read as it was, whatever follows it. -/
theorem take?_doubleQuotedChars (cs rest : List Char) (m : Mark) :
    take? true ⟨doubleQuotedChars cs ++ rest, m⟩ =
      some (cs, ⟨rest, m.after (doubleQuotedChars cs)⟩) := by
  -- Each character is written as one at least, so that the fuel for what is written will do.
  have hlength : cs.length ≤ (cs.flatMap shownChars).length := by
    induction cs with
    | nil => exact Nat.le_refl 0
    | cons c cs ih =>
      have hc := List.length_pos_of_ne_nil (shownChars_ne_nil c)
      rw [List.flatMap_cons, List.length_append, List.length_cons]
      omega
  have hchars : doubleQuotedChars cs = '"' :: (cs.flatMap shownChars ++ ['"']) := rfl
  have hread := @reads_flatMap_shownChars rest [] cs nofun (m.next '"')
  have hstart : Cursor.skip 1 ⟨'"' :: (cs.flatMap shownChars ++ ['"']) ++ rest, m⟩ =
      ⟨cs.flatMap shownChars ++ '"' :: rest, m.next '"'⟩ := by
    simp [Cursor.skip]
  rw [hchars, Mark.after_cons_of_not_isBreak m rfl, take?, hstart]
  apply hread
  simp only [List.length_append, List.length_cons, List.length_nil]
  omega

/-! ### Between single quotes -/

/-- The last character of a text, or the one in front of it. -/
theorem elim_getLast?_cons (c : Char) (cs : List Char) (b : Bool) :
    (c :: cs).getLast?.elim b isBreak = cs.getLast?.elim (isBreak c) isBreak := by
  rw [List.getLast?_cons]
  cases cs.getLast? <;> rfl

/-- What is written for a character between single quotes. -/
def doubledChars (c : Char) : List Char :=
  if c = '\'' then ['\'', '\''] else [c]

/-- What is written behind a single quote for the characters that are left, with the indentation
    pending behind a break. -/
def singleBody (indent : Nat) (pending : Bool) : List Char → List Char
  | [] => (if pending then indentation indent else []) ++ ['\'']
  | c :: cs =>
    if isBreak c then c :: singleBody indent true cs
    else (if pending then indentation indent else []) ++ doubledChars c ++
      singleBody indent false cs

/-- A text in single quotes is a quote and its body. -/
theorem singleQuotedChars_eq (indent : Nat) (cs : List Char) :
    singleQuotedChars indent cs = '\'' :: singleBody indent false cs := by
  -- The closing quote is indented if the last character, or the one before all, is a break.
  have hbody (pending : Bool) : indentLines.go indent pending (cs.flatMap doubledChars) ++
        (if cs.getLast?.elim pending isBreak then indentation indent else []) ++ ['\''] =
      singleBody indent pending cs := by
    induction cs generalizing pending with
    | nil => rfl
    | cons c cs ih =>
      rw [elim_getLast?_cons, singleBody]
      by_cases hbreak : isBreak c
      · have hquote : c ≠ '\'' := by rintro rfl; cases hbreak
        rw [if_pos hbreak, ← ih]
        simp [doubledChars, indentLines.go, hbreak, hquote]
      · rw [if_neg hbreak, ← ih]
        cases pending <;> by_cases hquote : c = '\'' <;>
          simp [doubledChars, indentLines.go, hbreak, hquote, show isBreak '\'' = false from rfl]
  rw [← hbody]
  show '\'' :: (_ ++ _) ++ ['\''] = _
  cases cs.getLast? <;> rfl

/-- A character that is neither blank nor a break, and what is written behind it. -/
theorem Reads.doubledChars {written : List Char}
    (h : ∀ m, Reads false n ⟨written ++ rest, m⟩ text ⟨rest, m.after written⟩)
    (hblank : isBlank c = false) (hbreak : isBreak c = false) (m : Mark) :
    Reads false (n + 1) ⟨doubledChars c ++ (written ++ rest), m⟩ (c :: text)
      ⟨rest, m.after (doubledChars c ++ written)⟩ := by
  rw [Mark.after_append]
  unfold QuotedScalar.doubledChars
  split
  · next hquote =>
    rw [hquote]
    exact (h _).doubledQuote
  · next hquote =>
    rw [Mark.after_cons_of_not_isBreak _ hbreak]
    exact (h _).plain hblank hbreak hquote nofun

/-- What is written for a character that is no gap is none. -/
theorem atGap_doubledChars (hblank : isBlank c = false) (hbreak : isBreak c = false)
    (rest : List Char) : atGap (doubledChars c ++ rest) = false := by
  unfold doubledChars
  split
  · rfl
  · simp [atGap, hblank, hbreak]

/-- A run and what is written behind it are read up to the quote. -/
theorem reads_singleBody {cs : List Char} (hrun : IsRun indent run)
    (hquotable : ∀ c ∈ cs, IsQuotable indent c) (hchain : (run ++ cs).IsChain IsApart)
    (hrest : rest.head? ≠ some '\'') (m : Mark) :
    Reads false (run.length + cs.length)
      ⟨run ++ (singleBody indent (run.getLast?.any isBreak) cs ++ rest), m⟩ (run ++ cs)
      ⟨rest, m.after (run ++ singleBody indent (run.getLast?.any isBreak) cs)⟩ := by
  induction cs generalizing run m with
  | nil =>
    have hquote : Reads false 0 ⟨'\'' :: rest, m.after (writtenRun indent run)⟩ []
        ⟨rest, m.after (writtenRun indent run ++ ['\''])⟩ := by
      rw [Mark.after_append]
      exact reads_singleQuote hrest
    have h := hquote.behindRun hrun rfl
    simpa [writtenRun, singleBody, Nat.add_comm] using h
  | cons c cs ih =>
    obtain ⟨hc, hcs⟩ := List.forall_mem_cons.1 hquotable
    obtain ⟨-, hchainCs, hjoin⟩ := List.isChain_append.1 hchain
    have hjoin : ∀ a ∈ run.getLast?, IsApart a c := fun a ha => hjoin a ha c rfl
    have hchainMore : ((run ++ [c]) ++ cs).IsChain IsApart := by
      rwa [List.append_assoc, List.singleton_append]
    by_cases hbreak : isBreak c
    · -- A break goes on with the run,
      have h := ih (hrun.concat (.inr (hc.2 hbreak)) hjoin) hcs hchainMore m
      simpa [singleBody, hbreak, Nat.add_comm, Nat.add_left_comm] using h
    · by_cases hspace : c = ' '
      · -- and so does a space, which does not stand behind a break.
        have hpending := hrun.getLast?_any_isBreak (hspace ▸ hjoin)
        have h := ih (hrun.concat (.inl hspace) hjoin) hcs hchainMore m
        have hself : doubledChars c = [c] := by rw [hspace]; rfl
        simpa [singleBody, hbreak, hpending, hself, Nat.add_comm, Nat.add_left_comm] using h
      · -- Any other character ends it.
        have hblank : isBlank c = false := by
          rw [Bool.eq_false_iff]
          exact fun hblank => hspace (hc.1 hblank)
        rw [Bool.not_eq_true] at hbreak
        have hbody (m : Mark) : Reads false cs.length ⟨singleBody indent false cs ++ rest, m⟩ cs
            ⟨rest, m.after (singleBody indent false cs)⟩ := by
          simpa using @ih [] (.inl nofun) hcs (List.isChain_cons.1 hchainCs).2 m
        have hchar := Reads.doubledChars hbody hblank hbreak (m.after (writtenRun indent run))
        have h := hchar.behindRun hrun (atGap_doubledChars hblank hbreak _)
        rw [← Mark.after_append] at h
        simpa [singleBody, hbreak, writtenRun, Nat.add_comm, Nat.add_left_comm] using h

/-- The body of a text is longer than the text. -/
theorem length_lt_length_singleBody (indent : Nat) (pending : Bool) (cs : List Char) :
    cs.length < (singleBody indent pending cs).length := by
  induction cs generalizing pending with
  | nil => cases pending <;> simp [singleBody]
  | cons c cs ih =>
    have htrue := ih true
    have hfalse := ih false
    rw [singleBody]
    split
    · rw [List.length_cons, List.length_cons]
      omega
    · have hchar : 1 ≤ (doubledChars c).length := by
        unfold doubledChars
        split <;> simp
      rw [List.length_append, List.length_append, List.length_cons]
      omega

/-- **A text between single quotes** is read as it was, unless another quote follows. -/
theorem take?_singleQuotedChars {cs : List Char} (hquotable : ∀ c ∈ cs, IsQuotable indent c)
    (hchain : cs.IsChain IsApart) (hrest : rest.head? ≠ some '\'') (m : Mark) :
    take? false ⟨singleQuotedChars indent cs ++ rest, m⟩ =
      some (cs, ⟨rest, m.after (singleQuotedChars indent cs)⟩) := by
  have hread :=
    @reads_singleBody rest [] indent cs (.inl nofun) hquotable hchain hrest (m.next '\'')
  have hlength := length_lt_length_singleBody indent false cs
  have hstart : Cursor.skip 1 ⟨'\'' :: singleBody indent false cs ++ rest, m⟩ =
      ⟨singleBody indent false cs ++ rest, m.next '\''⟩ := rfl
  rw [singleQuotedChars_eq, Mark.after_cons_of_not_isBreak m rfl, take?, hstart]
  apply hread
  simp only [List.length_append, List.length_cons, List.length_nil]
  omega

end Reads

end QuotedScalar

end MachineTuning.Yaml
