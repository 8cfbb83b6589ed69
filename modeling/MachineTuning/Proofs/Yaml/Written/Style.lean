import MachineTuning.Proofs.Yaml.Written.Literal

namespace MachineTuning.Yaml

/-!
# Styles — each text fits the way it is written

`Style.ofText` looks at a text and chooses how to write it.  What it has seen by then is what a
reader of that way needs: `IsPlain` without quotes, `IsQuotable` and `IsApart` between single
quotes, and `IsLiteral` on lines of its own.
-/

namespace Style

variable {c : Char} {cs : List Char} {s : String}

/-! ### Characters -/

/-- Printable characters are permitted. -/
theorem isPermitted_of_isPrintable (h : isPrintable c) : isPermitted c := by
  simp only [isPrintable, Bool.or_eq_true, Bool.and_eq_true, decide_eq_true_eq] at h
  simp only [isPermitted, Bool.or_eq_true, Bool.and_eq_true, decide_eq_true_eq]
  rcases h with (((h | h) | h) | ⟨⟨hlower, hupper⟩, -⟩) | h
  · obtain rfl : c = '\n' := Char.toNat_inj.1 h
    simp
  · simp [h]
  · simp [h]
  · simp [hlower, hupper]
  · simp [h]

/-- A blank that may be written as it is. -/
theorem eq_space_of_isPrintable (h : isPrintable c) (hblank : isBlank c) : c = ' ' := by
  rw [isBlank, Bool.or_eq_true, decide_eq_true_eq, decide_eq_true_eq] at hblank
  rcases hblank with rfl | rfl
  · rfl
  · exact absurd h (by decide)

/-- A break that may be written as it is. -/
theorem eq_or_isSeparator_of_isPrintable (h : isPrintable c) (hbreak : isBreak c) :
    c = '\n' ∨ isSeparator c := by
  simp only [isBreak, Bool.or_eq_true, decide_eq_true_eq] at hbreak
  rcases hbreak with (((rfl | rfl) | rfl) | rfl) | rfl
  · exact .inl rfl
  · exact absurd h (by decide)
  · exact absurd h (by decide)
  · exact .inr rfl
  · exact .inr rfl

/-- A text without a pair is one in which no two neighbours make it up. -/
theorem hasPair_eq_false_iff {p q : Char → Bool} :
    hasPair p q cs = false ↔ cs.IsChain fun a b => ¬(p a ∧ q b) := by
  induction cs with
  | nil => simp [hasPair]
  | cons c cs ih =>
    cases cs with
    | nil => simp [hasPair]
    | cons d cs =>
      rw [hasPair, Bool.or_eq_false_iff, ih, List.isChain_cons_cons, ← Bool.not_eq_true,
        Bool.and_eq_true]

/-- Two characters do not stand side by side. -/
theorem hasPair_eq_false_iff_not_infix {a b : Char} :
    hasPair (· = a) (· = b) cs = false ↔ ¬[a, b] <:+: cs := by
  rw [hasPair_eq_false_iff, List.isChain_iff_forall_rel_of_append_cons_cons]
  constructor
  · rintro h ⟨front, back, rfl⟩
    exact h (List.append_assoc front [a, b] back) (by simp)
  · rintro h c d front back rfl ⟨hc, hd⟩
    rw [decide_eq_true_eq] at hc hd
    exact h ⟨front, back, by simp [hc, hd]⟩

/-! ### The choice -/

/-- A text is written plain only if it can be and is read as a text. -/
theorem admits_of_plain (h : ofText s = .plain) :
    readsAsOther s = false ∧ admitsPlain s.toList := by
  simp only [ofText] at h
  split_ifs at h with _ _ hplain
  simpa using hplain

/-- A text is written in single quotes only if it can be, on one line. -/
theorem admits_of_singleQuoted (h : ofText s = .singleQuoted) :
    '\n' ∉ s.toList ∧ admitsSingleQuotes s.toList := by
  simp only [ofText] at h
  split_ifs at h with hline _ _ hquotes
  exact ⟨by simpa using hline, hquotes⟩

/-- A text is written as a literal only if it can be, on several lines. -/
theorem admits_of_literal (h : ofText s = .literal) :
    '\n' ∈ s.toList ∧ admitsLiteral s.toList := by
  simp only [ofText] at h
  split_ifs at h with hline hliteral
  exact ⟨by simpa using hline, hliteral⟩

/-- Only between double quotes are there escapes. -/
theorem isPrintable_of_ofText (h : ofText s ≠ .doubleQuoted) : ∀ c ∈ s.toList, isPrintable c := by
  have hescapes : needsEscapes s.toList = false := by
    cases hstyle : ofText s with
    | plain =>
      have hadmits := (admits_of_plain hstyle).2
      simp only [admitsPlain, Bool.and_eq_true, Bool.not_eq_true'] at hadmits
      exact hadmits.2
    | singleQuoted =>
      have hadmits := (admits_of_singleQuoted hstyle).2
      simp only [admitsSingleQuotes, Bool.and_eq_true, Bool.not_eq_true'] at hadmits
      exact hadmits.2
    | literal =>
      have hadmits := (admits_of_literal hstyle).2
      simp only [admitsLiteral, Bool.and_eq_true, Bool.not_eq_true'] at hadmits
      exact hadmits.2
    | doubleQuoted => exact absurd hstyle h
  simpa [needsEscapes] using hescapes

/-- No text without escapes starts with a byte order mark. -/
theorem head?_ne_of_ofText (h : ofText s ≠ .doubleQuoted) : s.toList.head? ≠ some '\ufeff' := by
  intro heq
  have hprintable := isPrintable_of_ofText h _ (List.mem_of_mem_head? heq)
  exact absurd hprintable (by decide)

/-! ### What readers need -/

/-- A text without quotes is not taken for nothing. -/
theorem not_isNull_of_plain (h : ofText s = .plain) :
    s.isEmpty = false ∧ Scalar.isNull s = false := by
  have hother := (admits_of_plain h).1
  rw [readsAsOther, Bool.or_eq_false_iff, decide_eq_false_iff_not, not_not] at hother
  rw [← Bool.not_eq_true, ← Bool.not_eq_true, ← not_or]
  intro hnull
  rw [Scalar.plainFound, if_pos hnull] at hother
  exact absurd hother.2 (by simp)

/-- What is written plain is a plain text. -/
theorem isPlain_of_ofText (h : ofText s = .plain) : IsPlain s.toList := by
  have hprintable := isPrintable_of_ofText (s := s) (by rw [h]; decide)
  have hempty := (not_isNull_of_plain h).1
  have hadmits := (admits_of_plain h).2
  simp only [admitsPlain, Bool.and_eq_true, Bool.not_eq_true', hasEdge, Bool.or_eq_false_iff]
    at hadmits
  -- Each condition of a plain text is one of those for which a text is quoted.
  obtain ⟨⟨⟨⟨⟨hborder, hstart⟩, hinner⟩, hbreak⟩, hhead, hlast⟩, -⟩ := hadmits
  refine ⟨?_, hborder, hstart, hinner, fun c hc => ⟨?_, ?_⟩, ?_, ?_⟩
  · intro hnil
    rw [String.toList_eq_nil_iff] at hnil
    rw [hnil] at hempty
    cases hempty
  · simpa using List.any_eq_false.1 hbreak c hc
  · rintro rfl
    exact absurd (hprintable '\t' hc) (by decide)
  · intro hspace
    rw [hspace] at hhead
    cases hhead
  · intro hspace
    rw [hspace] at hlast
    cases hlast

/-- What is written in single quotes holds nothing that these would alter. -/
theorem isQuotable_of_ofText (h : ofText s = .singleQuoted) {indent : Nat}
    (hindent : 0 < indent ∨ ∀ c ∈ s.toList, isBreak c = false) :
    ∀ c ∈ s.toList, IsQuotable indent c := by
  have hprintable := isPrintable_of_ofText (s := s) (by rw [h]; decide)
  have hline := (admits_of_singleQuoted h).1
  intro c hc
  refine ⟨eq_space_of_isPrintable (hprintable c hc), fun hbreak => ?_⟩
  constructor
  · refine hindent.resolve_right fun hnone => ?_
    rw [hnone c hc] at hbreak
    cases hbreak
  · refine (eq_or_isSeparator_of_isPrintable (hprintable c hc) hbreak).resolve_left ?_
    rintro rfl
    exact hline hc

/-- What is written in single quotes keeps its spaces and its line breaks apart. -/
theorem isChain_isApart_of_ofText (h : ofText s = .singleQuoted) : s.toList.IsChain IsApart := by
  have hadmits := (admits_of_singleQuoted h).2
  simp only [admitsSingleQuotes, Bool.and_eq_true, Bool.not_eq_true', hasSpaceBeforeBreak,
    hasPair_eq_false_iff, decide_eq_true_eq] at hadmits
  obtain ⟨⟨hbehind, hbefore⟩, -⟩ := hadmits
  rw [List.isChain_iff_forall_rel_of_append_cons_cons] at hbehind hbefore ⊢
  intro a b front back heq
  constructor
  · rintro ⟨ha, hb⟩
    exact hbehind heq ⟨isBreak_of_isSeparator ha, hb⟩
  · rintro ⟨ha, hb⟩
    exact hbefore heq ⟨ha, isBreak_of_isSeparator hb⟩

/-- What is written as a literal holds nothing that would be altered in it. -/
theorem isLiteral_of_ofText (h : ofText s = .literal) : ∀ c ∈ s.toList, IsLiteral c := by
  have hprintable := isPrintable_of_ofText (s := s) (by rw [h]; decide)
  intro c hc
  refine ⟨eq_space_of_isPrintable (hprintable c hc), fun hbreak => ?_⟩
  rcases eq_or_isSeparator_of_isPrintable (hprintable c hc) hbreak with rfl | hseparator
  · decide
  · refine ⟨breakChar_of_isSeparator hseparator, ?_⟩
    rintro rfl
    cases hseparator

/-- A text on one line has no lines of its own. -/
theorem ofText_ne_literal (h : ∀ c ∈ s.toList, isBreak c = false) : ofText s ≠ .literal := by
  intro hliteral
  have hbreak := h '\n' (admits_of_literal hliteral).1
  cases hbreak

end Style

/-! ### What is written -/

section Written

variable {c d : Char} {cs : List Char} {s : String}

/-- An escape has only characters that a document may hold, and breaks no line. -/
theorem forall_mem_escapeChars (h : isEscaped c) :
    ∀ d ∈ escapeChars c, isPermitted d ∧ isBreak d = false := by
  have hcodes : ∀ n ∈ escapedCodes, ∀ d ∈ escapeChars (Char.ofNat n),
      isPermitted d ∧ isBreak d = false := by
    decide
  have hall := hcodes _ (toNat_mem_escapedCodes h)
  rwa [Char.ofNat_toNat] at hall

/-- What is shown for a character is permitted and stays on its line. -/
theorem forall_mem_shownChars (c : Char) :
    ∀ d ∈ shownChars c, isPermitted d ∧ isBreak d = false := by
  unfold shownChars
  split
  · next h => exact forall_mem_escapeChars h
  · next h =>
    simp only [isEscaped, Bool.or_eq_true, Bool.not_eq_true', decide_eq_true_eq, not_or,
      Bool.not_eq_true, Bool.not_eq_false] at h
    intro d hd
    obtain rfl := List.mem_singleton.1 hd
    exact ⟨Style.isPermitted_of_isPrintable h.1.1.1, h.1.1.2⟩

/-- What is written in double quotes is permitted and stays on its line. -/
theorem forall_mem_doubleQuotedChars (cs : List Char) :
    ∀ d ∈ doubleQuotedChars cs, isPermitted d ∧ isBreak d = false := by
  show ∀ d ∈ '"' :: cs.flatMap shownChars ++ ['"'], isPermitted d ∧ isBreak d = false
  rw [List.forall_mem_append, List.forall_mem_cons]
  refine ⟨⟨by decide, fun d hd => ?_⟩, by decide⟩
  obtain ⟨c, -, hd⟩ := List.mem_flatMap.1 hd
  exact forall_mem_shownChars c d hd

/-- Nothing but indentation is added to lines. -/
theorem mem_indentLines {indent : Nat} {pending : Bool} (h : d ∈ indentLines.go indent pending cs) :
    d = ' ' ∨ d ∈ cs := by
  induction cs generalizing pending with
  | nil => cases h
  | cons c cs ih =>
    have hcons {pending : Bool} (hd : d ∈ c :: indentLines.go indent pending cs) :
        d = ' ' ∨ d ∈ c :: cs := by
      rcases List.mem_cons.1 hd with rfl | hd
      · exact .inr List.mem_cons_self
      · exact (ih hd).imp_right (List.mem_cons_of_mem c)
    rw [indentLines.go] at h
    split_ifs at h
    · exact hcons h
    · rcases List.mem_append.1 h with h | h
      · exact .inl (mem_indentation h)
      · exact hcons h
    · exact hcons h

/-- Between single quotes stand the characters of the text, spaces and quotes. -/
theorem mem_singleQuotedChars {indent : Nat} (h : d ∈ singleQuotedChars indent cs) :
    d = ' ' ∨ d = '\'' ∨ d ∈ cs := by
  simp only [singleQuotedChars, List.mem_append, List.mem_cons, List.not_mem_nil, or_false] at h
  rcases h with ((rfl | h) | h) | rfl
  · exact .inr (.inl rfl)
  · rcases mem_indentLines h with rfl | h
    · exact .inl rfl
    · obtain ⟨c, hc, hd⟩ := List.mem_flatMap.1 h
      split_ifs at hd with hquote
      · exact .inr (.inl (by simpa using hd))
      · exact .inr (.inr (List.mem_singleton.1 hd ▸ hc))
  · split_ifs at h
    · exact .inl (mem_indentation h)
    · cases h
  · exact .inr (.inl rfl)

/-- The hints of a literal are permitted. -/
theorem isPermitted_of_mem_literalHints (h : d ∈ literalHints cs) : isPermitted d := by
  rw [BlockScalar.literalHints_eq, List.mem_append] at h
  rcases h with h | h
  · split_ifs at h
    · obtain rfl := List.mem_singleton.1 h
      rfl
    · cases h
  · cases hchomping : BlockScalar.chompingOf cs <;> rw [hchomping] at h
    · obtain rfl := List.mem_singleton.1 h
      rfl
    · cases h
    · obtain rfl := List.mem_singleton.1 h
      rfl

/-- A literal holds the characters of the text and permitted ones. -/
theorem isPermitted_or_mem_of_mem_literalChars {indent : Nat} (h : d ∈ literalChars indent cs) :
    isPermitted d ∨ d ∈ cs := by
  rw [literalChars, List.cons_append, List.mem_cons, List.mem_append, List.mem_cons] at h
  rcases h with rfl | h | rfl | h
  · exact .inl rfl
  · exact .inl (isPermitted_of_mem_literalHints h)
  · exact .inl rfl
  · rcases mem_indentLines h with rfl | h
    · exact .inl rfl
    · exact .inr h

/-- A line that is closed holds one more newline at most. -/
theorem mem_of_mem_closeLine (h : d ∈ closeLine cs) : d ∈ cs ++ ['\n'] := by
  unfold closeLine at h
  split_ifs at h
  · exact List.mem_append_left _ h
  · exact h

/-- A text is written with characters that a document may hold. -/
theorem isPermitted_of_mem_textLine {indent : Nat} (h : d ∈ textLine indent s) : isPermitted d := by
  have hprintable (hstyle : Style.ofText s ≠ .doubleQuoted) (hd : d ∈ s.toList) : isPermitted d :=
    Style.isPermitted_of_isPrintable (Style.isPrintable_of_ofText hstyle d hd)
  have hended {cs : List Char} (hd : d ∈ cs ++ ['\n']) (hcs : d ∈ cs → isPermitted d) :
      isPermitted d := by
    rcases List.mem_append.1 hd with hd | hd
    · exact hcs hd
    · obtain rfl := List.mem_singleton.1 hd
      rfl
  rw [textLine] at h
  -- Only double quotes are chosen for a text that is not printable, and they escape it.
  cases hstyle : Style.ofText s with
  | plain =>
    rw [hstyle] at h hprintable
    exact hended h (hprintable (by decide))
  | singleQuoted =>
    rw [hstyle] at h hprintable
    refine hended h fun hd => ?_
    rcases mem_singleQuotedChars hd with rfl | rfl | hd
    · rfl
    · rfl
    · exact hprintable (by decide) hd
  | doubleQuoted =>
    rw [hstyle] at h
    exact hended h fun hd => (forall_mem_doubleQuotedChars s.toList d hd).1
  | literal =>
    rw [hstyle] at h hprintable
    refine hended (mem_of_mem_closeLine h) fun hd => ?_
    exact (isPermitted_or_mem_of_mem_literalChars hd).elim id (hprintable (by decide))

/-! ### What is written for a short key -/

/-- A simple key stands on one line, and so it is no literal. -/
theorem ofText_ne_literal_of_admitsSimpleKey (h : Style.admitsSimpleKey s) :
    (∀ c ∈ s.toList, isBreak c = false) ∧ Style.ofText s ≠ .literal := by
  rw [Style.admitsSimpleKey, Bool.and_eq_true, Bool.not_eq_true'] at h
  have hline : ∀ c ∈ s.toList, isBreak c = false := fun c hc => by
    simpa using List.any_eq_false.1 h.1 c hc
  exact ⟨hline, Style.ofText_ne_literal hline⟩

/-- A short key stands on one line. -/
theorem forall_mem_keyChars (h : Style.admitsSimpleKey s) :
    ∀ d ∈ keyChars s, isPermitted d ∧ isBreak d = false := by
  obtain ⟨hline, -⟩ := ofText_ne_literal_of_admitsSimpleKey h
  have hprintable (hstyle : Style.ofText s ≠ .doubleQuoted) (d : Char) (hd : d ∈ s.toList) :
      isPermitted d ∧ isBreak d = false :=
    ⟨Style.isPermitted_of_isPrintable (Style.isPrintable_of_ofText hstyle d hd), hline d hd⟩
  unfold keyChars
  split
  · next hstyle => exact hprintable (by rw [hstyle]; decide)
  · next hstyle =>
    intro d hd
    rcases mem_singleQuotedChars hd with rfl | rfl | hd
    · decide
    · decide
    · exact hprintable (by rw [hstyle]; decide) d hd
  · exact forall_mem_doubleQuotedChars s.toList

/-- Something is written for every key. -/
theorem keyChars_ne_nil (s : String) : keyChars s ≠ [] := by
  unfold keyChars
  split
  · next hstyle => exact (Style.isPlain_of_ofText hstyle).ne_nil
  · exact List.cons_ne_nil _ _
  · exact List.cons_ne_nil _ _

/-- What multiplies the bytes of each character multiplies those of a text at most as much. -/
theorem byteLength_flatMap_le {f : Char → List Char} {k : Nat}
    (h : ∀ c, Text.byteLength (f c) ≤ k * c.utf8Size) (cs : List Char) :
    Text.byteLength (cs.flatMap f) ≤ k * Text.byteLength cs := by
  induction cs with
  | nil => exact Nat.zero_le _
  | cons c cs ih =>
    have hc := h c
    rw [List.flatMap_cons, Text.byteLength_append, Text.byteLength_cons, Nat.mul_add]
    omega

/-- Without a break nothing is indented. -/
theorem indentLines_eq_self {indent : Nat} (h : ∀ c ∈ cs, isBreak c = false) :
    indentLines indent cs = cs := by
  show indentLines.go indent false cs = cs
  induction cs with
  | nil => rfl
  | cons c cs ih =>
    obtain ⟨hc, hcs⟩ := List.forall_mem_cons.1 h
    rw [indentLines.go, if_neg (by simp [hc]), if_neg (by decide), ih hcs]

open QuotedScalar (doubledChars)

/-- A text on one line, between single quotes. -/
theorem singleQuotedChars_of_line {indent : Nat} (h : ∀ c ∈ cs, isBreak c = false) :
    singleQuotedChars indent cs = '\'' :: cs.flatMap doubledChars ++ ['\''] := by
  -- Doubling a quote breaks no line.
  have hdoubled : ∀ d ∈ cs.flatMap doubledChars, isBreak d = false := by
    intro d hd
    obtain ⟨c, hc, hd⟩ := List.mem_flatMap.1 hd
    unfold doubledChars at hd
    split_ifs at hd
    · obtain rfl : d = '\'' := by simpa using hd
      rfl
    · rw [List.mem_singleton.1 hd]
      exact h c hc
  have hlast : cs.getLast?.any isBreak = false := by
    rw [Bool.eq_false_iff]
    intro hany
    obtain ⟨c, hc, hbreak⟩ := (Option.any_eq_true _ _).1 hany
    rw [h c (List.mem_of_getLast? hc)] at hbreak
    cases hbreak
  show '\'' :: indentLines indent (cs.flatMap doubledChars) ++ _ ++ ['\''] = _
  rw [indentLines_eq_self hdoubled, hlast, if_neg (by decide), List.append_nil]

/-- A character in single quotes takes up at most four times its bytes. -/
theorem byteLength_doubledChars_le (c : Char) :
    Text.byteLength (doubledChars c) ≤ 4 * c.utf8Size := by
  unfold doubledChars
  split_ifs with hquote
  · subst hquote
    decide
  · show c.utf8Size + 0 ≤ 4 * c.utf8Size
    omega

/-- A character in double quotes takes up at most four times its bytes. -/
theorem byteLength_shownChars_le (c : Char) :
    Text.byteLength (shownChars c) ≤ 4 * c.utf8Size := by
  unfold shownChars
  split_ifs with hescaped
  · obtain ⟨-, -, -, hle⟩ := isEscapeOf_escapeChars hescaped
    exact hle
  · show c.utf8Size + 0 ≤ 4 * c.utf8Size
    omega

/-- A short key is not too long with its quotes and escapes either. -/
theorem byteLength_keyChars_le (h : Style.admitsSimpleKey s) :
    Text.byteLength (keyChars s) ≤ 1024 := by
  have hlength : Text.byteLength s.toList ≤ 128 := by
    rw [Style.admitsSimpleKey, Bool.and_eq_true, decide_eq_true_eq] at h
    rw [Text.byteLength_toList]
    exact h.2
  -- A character is written with four times its bytes at most.
  have hquoted {quote : Char} (hquote : quote.utf8Size = 1) {cs : List Char}
      (hcs : Text.byteLength cs ≤ 4 * Text.byteLength s.toList) :
      Text.byteLength (quote :: cs ++ [quote]) ≤ 1024 := by
    have hclose : Text.byteLength [quote] = 1 := by rw [Text.byteLength_cons, hquote]; rfl
    rw [Text.byteLength_append, Text.byteLength_cons, hclose, hquote]
    omega
  obtain ⟨hline, -⟩ := ofText_ne_literal_of_admitsSimpleKey h
  unfold keyChars
  split
  · omega
  · rw [singleQuotedChars_of_line hline]
    exact hquoted rfl (byteLength_flatMap_le byteLength_doubledChars_le _)
  · exact hquoted rfl (byteLength_flatMap_le byteLength_shownChars_le _)

end Written

end MachineTuning.Yaml
