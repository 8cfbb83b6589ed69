import MachineTuning.Proofs.Yaml.Block.Scanner
import MachineTuning.Proofs.Yaml.Written.Style

namespace MachineTuning.Yaml

/-!
# Scanning lines — what the texts and keys of a document do to a scanner

A scalar is one token.  Behind its key or dash, the end of its line is passed over with it
(`IsScalar` and `leads_scalarLine`); in front of a colon it is a key, and the token that says so is
put in front of it afterwards (`IsBehindKey` and `leads_colon`).

* `leads_textLine` — a text is read in the style it is written in;
* `leads_simpleKey` — so is a short key with its colon;
* `leads_emptyBrackets` — and brackets with nothing between them.
-/

/-- The style of the scalar that a text is written as. -/
def Style.scalarStyle : Style → ScalarStyle
  | .plain => .plain
  | .singleQuoted => .singleQuoted
  | .literal => .literal
  | .doubleQuoted => .doubleQuoted

namespace Scanner

/-! ### Scalars -/

/-- The scanner that remembers that a key may start here, if one is allowed. -/
def keySaved (s : Scanner) : Scanner :=
  { s with
    key :=
      if s.keyAllowed then some ⟨s.indent = s.mark.column, s.tokens.length, s.mark⟩ else none }

/-- The scanner behind a scalar, which may be a key. -/
def behindScalar (s : Scanner) (kind : TokenKind) (stop : Mark) (cursor : Cursor)
    (keyAllowed : Bool) : Scanner :=
  { s.keySaved.emit kind s.mark stop with cursor, keyAllowed }

/-- In a block at `indent`, the characters that are written are one token in front of those behind
    them.  Reading goes on at `after`, and `broke` says whether that is another line. -/
def IsScalar (indent : Int) (written behind : List Char) (kind : TokenKind) (after : Mark → Cursor)
    (broke : Bool) : Prop :=
  ∃ c cs, written ++ behind = c :: cs ∧ startsToken c ∧
    ∀ (s : Scanner) (column : Nat) (before : List TokenKind) (indents : List Nat)
      (keyAllowed : Bool), s.IsIn (written ++ behind) column before indents keyAllowed →
      s.indent = indent → indent ≤ column →
      ∃ stop, s.token? c cs =
        some (s.behindScalar kind stop (after (s.mark.after written)) broke)

section Scalars

variable {s : Scanner} {written behind text : List Char} {c : Char} {column : Nat} {indent : Int}
  {before : List TokenKind} {indents : List Nat} {keyAllowed broke : Bool} {after : Mark → Cursor}

/-- A key may start wherever a key is allowed. -/
theorem IsIn.saveKey?_eq (h : s.IsIn written column before indents keyAllowed) :
    s.saveKey? = some s.keySaved := by
  have hkey := h.key
  rw [saveKey?, keySaved, h.inFlow]
  split_ifs
  · simp [Scanner.dropKey?, hkey]
  · rw [← hkey]

/-- Deeper than its block, a key may start but need not. -/
theorem IsIn.of_mem_keySaved {k : Nat} (h : s.IsIn written column before (k :: indents) keyAllowed)
    (hcolumn : k < column) {pending : PendingKey} (hpending : pending ∈ s.keySaved.key) :
    pending.required = false ∧ pending.mark = s.mark := by
  have hindent : s.indent = k := by rw [indent, h.indents]
  rw [keySaved] at hpending
  split_ifs at hpending
  · obtain rfl := Option.some.inj hpending
    refine ⟨?_, rfl⟩
    rw [hindent, h.column, decide_eq_false_iff_not]
    omega
  · cases hpending

/-- A text between quotes. -/
theorem isScalar_quoted {style : ScalarStyle}
    (hquote : c = '\'' ∧ style = .singleQuoted ∨ c = '"' ∧ style = .doubleQuoted)
    (htake : ∀ m, QuotedScalar.take? (style = .doubleQuoted) ⟨c :: written ++ behind, m⟩ =
      some (text, ⟨behind, m.after (c :: written)⟩)) :
    IsScalar indent (c :: written) behind (.scalar style text) (fun m => ⟨behind, m⟩) false := by
  refine ⟨c, written ++ behind, rfl, ?_, fun s column before indents keyAllowed hs _ _ => ?_⟩
  · rcases hquote with ⟨rfl, -⟩ | ⟨rfl, -⟩ <;> rfl
  have hcursor := cursor_eq hs.rest
  have htoken : s.token? c (written ++ behind) = s.quotedScalar? style := by
    rcases hquote with ⟨rfl, rfl⟩ | ⟨rfl, rfl⟩ <;>
      simp [token?, hcursor, Cursor.atIndicator_of_ne]
  have htake' : QuotedScalar.take? (style = .doubleQuoted) s.keySaved.cursor =
      some (text, ⟨behind, s.mark.after (c :: written)⟩) := by
    rw [← htake, ← hcursor]
    rfl
  refine ⟨s.mark.after (c :: written), ?_⟩
  rw [htoken, quotedScalar?, hs.saveKey?_eq]
  show (QuotedScalar.take? (style = .doubleQuoted) s.keySaved.cursor).bind _ = _
  rw [htake']
  rfl

/-- A plain text starts a token. -/
theorem begins_of_isPlain (h : IsPlain written) (hmark : written.head? ≠ some '\ufeff')
    (behind : List Char) : Begins (written ++ behind) := by
  obtain ⟨c, cs, rfl⟩ := List.exists_cons_of_ne_nil h.ne_nil
  have hmark : c ≠ '\ufeff' := fun heq => hmark (by rw [heq]; rfl)
  have hspace : c ≠ ' ' := fun heq => h.head (by rw [heq]; rfl)
  have hcomment : c ≠ '#' := by
    rintro rfl
    exact h.head?_ne (by decide) rfl
  have hline := h.line c List.mem_cons_self
  simp [Begins, startsToken, isBlank, hspace, hline, hcomment, hmark]

/-- A dash or a mark in front of a plain text does not stand alone. -/
theorem not_atGap_of_isPlain {cs : List Char} (h : IsPlain (c :: cs))
    (hc : (c = '?' ∨ c = ':') ∨ c = '-') (behind : List Char) : atGap (cs ++ behind) = false := by
  have hstart := h.start
  rw [Style.startsLikePunctuation, Bool.or_eq_false_iff, Bool.and_eq_false_iff] at hstart
  have hgap : atGap cs = false := hstart.2.resolve_left fun hnot => by
    rcases hc with (rfl | rfl) | rfl <;> exact absurd hnot (by decide)
  cases cs with
  | nil => cases hgap
  | cons d cs => exact hgap

/-- No other punctuation stands in front of a plain text. -/
theorem ne_of_isPlain {cs : List Char} (h : IsPlain (c :: cs)) {d : Char}
    (hd : d ∈ "#,[]\x7b\x7d&*!|>'\"%@\x60".toList) : c ≠ d := by
  rintro rfl
  exact h.head?_ne hd rfl

/-- So a plain scalar may start there. -/
theorem startsPlain_of_isPlain {cs : List Char} (h : IsPlain (c :: cs)) :
    startsPlain c = true ∨ c = '-' ∨ c = '?' ∨ c = ':' := by
  have hspace : c ≠ ' ' := fun heq => h.head (by rw [heq]; rfl)
  have hline := h.line c List.mem_cons_self
  have hlist : ∀ d ∈ "-?:,[]\x7b\x7d#&*!|>'\"%@\x60".toList,
      (d = '-' ∨ d = '?' ∨ d = ':') ∨ d ∈ "#,[]\x7b\x7d&*!|>'\"%@\x60".toList := by
    decide
  by_cases hc : c = '-' ∨ c = '?' ∨ c = ':'
  · exact .inr hc
  · have hnot : "-?:,[]\x7b\x7d#&*!|>'\"%@\x60".toList.contains c = false := by
      rw [Bool.eq_false_iff]
      intro hmem
      rcases hlist c (List.contains_iff_mem.1 hmem) with hc' | hc'
      · exact hc hc'
      · exact ne_of_isPlain h hc' rfl
    left
    rw [startsPlain, hnot]
    simp [isBlank, hspace, hline]

/-- A plain text is taken for nothing else. -/
theorem IsIn.token?_of_isPlain {cs : List Char} (h : IsPlain (c :: cs))
    (hend : PlainScalar.IsEnd indent behind after broke)
    (hs : s.IsIn (c :: (cs ++ behind)) column before indents keyAllowed) :
    s.token? c (cs ++ behind) = s.plainScalar? := by
  have hcursor := cursor_eq hs.rest
  have hdash := h.not_atIndicator (m := s.mark) hend (.inl rfl)
  have hpoint := h.not_atIndicator (m := s.mark) hend (.inr rfl)
  rw [List.cons_append] at hdash hpoint
  -- The three signs that are punctuation when they stand alone do not stand alone here.
  have halone : (c = '?' ∨ c = ':') ∨ c = '-' → ¬atGap (cs ++ behind) = true := by
    intro hc hgap
    rw [not_atGap_of_isPlain h hc behind] at hgap
    cases hgap
  have hentry : ¬(c = '-' ∧ atGap (cs ++ behind) = true) := fun hc => halone (.inr hc.1) hc.2
  have hkey : ¬(c = '?' ∧ atGap (cs ++ behind) = true) := fun hc =>
    halone (.inl (.inl hc.1)) hc.2
  have hvalue : ¬(c = ':' ∧ atGap (cs ++ behind) = true) := fun hc =>
    halone (.inl (.inr hc.1)) hc.2
  have hpunctuation : c ≠ '%' ∧ c ≠ '[' ∧ c ≠ ']' ∧ c ≠ '\x7b' ∧ c ≠ '\x7d' ∧ c ≠ ',' ∧ c ≠ '*' ∧
      c ≠ '&' ∧ c ≠ '!' ∧ c ≠ '|' ∧ c ≠ '>' ∧ c ≠ '\'' ∧ c ≠ '"' := by
    refine ⟨?_, ?_, ?_, ?_, ?_, ?_, ?_, ?_, ?_, ?_, ?_, ?_, ?_⟩ <;>
      exact ne_of_isPlain h (by decide)
  have hplain := startsPlain_of_isPlain h
  simp [token?, hcursor, hdash, hpoint, hpunctuation, hentry, hkey, hvalue, hplain, hs.inFlow]

/-- A text without quotes. -/
theorem isScalar_plain (h : IsPlain written) (hmark : written.head? ≠ some '\ufeff')
    (hend : PlainScalar.IsEnd indent behind after broke) :
    IsScalar indent written behind (.scalar .plain written) after broke := by
  obtain ⟨c, cs, rfl⟩ := List.exists_cons_of_ne_nil h.ne_nil
  have hstarts : startsToken c = true := begins_of_isPlain h hmark behind
  refine ⟨c, cs ++ behind, rfl, hstarts, ?_⟩
  intro s column before indents keyAllowed hs hi hcolumn
  obtain ⟨last, htake⟩ := h.exists_take?_eq (m := s.mark) hend (by rwa [hs.column])
  have htake' : PlainScalar.take? s.keySaved.inFlow s.keySaved.indent s.keySaved.cursor =
      some ⟨c :: cs, last, after (s.mark.after (c :: cs)), broke⟩ := by
    show PlainScalar.take? s.inFlow s.indent s.cursor = _
    rw [hs.inFlow, hi, cursor_eq hs.rest]
    exact htake
  refine ⟨last, ?_⟩
  rw [hs.token?_of_isPlain h hend, plainScalar?, hs.saveKey?_eq]
  show (PlainScalar.take? s.keySaved.inFlow s.keySaved.indent s.keySaved.cursor).bind _ = _
  rw [htake']
  rfl

/-- A scalar behind its key or dash, and the end of its line. -/
theorem leads_scalarLine {k n : Nat} {tail : List Char} {kind : TokenKind}
    (h : IsScalar k written ('\n' :: indentation n ++ tail) kind after broke)
    (hafter : ∀ m, skipToToken false ((after m).rest.length + 1) broke (after m) =
      (true, ⟨tail, m.after ('\n' :: indentation n)⟩))
    (hcolumn : k < column) :
    Leads 1
      (Awaits (written ++ ('\n' :: indentation n ++ tail)) column before (k :: indents) keyAllowed)
      (some (Awaits tail n (before ++ [kind]) (k :: indents) true)) := by
  obtain ⟨c, cs, heq, -, htoken⟩ := h
  have hinside := isInside_of_le (Nat.le_of_lt hcolumn) indents
  rw [heq]
  refine leads_of_awaits hinside fun s hs => ?_
  have hindent : s.indent = k := by rw [indent, hs.indents]
  obtain ⟨stop, htoken⟩ := htoken s column before (k :: indents) keyAllowed (heq ▸ hs) hindent
    (by omega)
  refine ⟨_, htoken, ?_⟩
  -- The pending key stands on the line that has ended, so that it is dropped on the way down.
  have hkey : ∀ pending ∈ (s.behindScalar kind stop (after (s.mark.after written)) broke).key,
      pending.required = false ∧
        pending.mark.line < ((s.mark.after written).after ('\n' :: indentation n)).line := by
    intro pending hpending
    obtain ⟨hrequired, hmark⟩ := hs.of_mem_keySaved hcolumn hpending
    rw [hmark, ← Mark.after_append]
    exact ⟨hrequired, Mark.line_lt_line_after _ ⟨'\n', by simp, rfl⟩⟩
  have hawaits := awaits_of_skipToToken
    (s := s.behindScalar kind stop (after (s.mark.after written)) broke) hs.outerKeys
    (hafter (s.mark.after written)) hkey
  have hkinds : (s.behindScalar kind stop (after (s.mark.after written)) broke).kinds =
      before ++ [kind] := by
    rw [← hs.kinds]
    exact kinds_emit ..
  rw [column_after_indentation, hkinds] at hawaits
  rw [← hs.indents]
  exact hawaits

/-- A text without quotes on the rest of a line. -/
theorem leads_plainLine (h : IsPlain written) (hmark : written.head? ≠ some '\ufeff') {k n : Nat}
    {tail : List Char} (hn : n ≤ k) (htail : Begins tail) (hcolumn : k < column) :
    Leads 1
      (Awaits (written ++ ('\n' :: indentation n ++ tail)) column before (k :: indents) keyAllowed)
      (some (Awaits tail n (before ++ [.scalar .plain written]) (k :: indents) true)) :=
  leads_scalarLine (isScalar_plain h hmark (.line (by omega) htail.not_atGap))
    (fun _ => skipToToken_indentation htail 0 _ _ _) hcolumn

/-- A text between quotes on the rest of a line. -/
theorem leads_quotedLine {style : ScalarStyle}
    (hquote : c = '\'' ∧ style = .singleQuoted ∨ c = '"' ∧ style = .doubleQuoted) {k n : Nat}
    {tail : List Char} (htake : ∀ m, QuotedScalar.take? (style = .doubleQuoted)
      ⟨c :: written ++ ('\n' :: indentation n ++ tail), m⟩ =
        some (text, ⟨'\n' :: indentation n ++ tail, m.after (c :: written)⟩))
    (htail : Begins tail) (hcolumn : k < column) :
    Leads 1
      (Awaits (c :: written ++ ('\n' :: indentation n ++ tail)) column before (k :: indents)
        keyAllowed)
      (some (Awaits tail n (before ++ [.scalar style text]) (k :: indents) true)) :=
  leads_scalarLine (isScalar_quoted hquote htake)
    (fun m => by
      rw [List.cons_append, List.length_cons]
      exact skipToToken_line htail n _ false m)
    hcolumn

/-- A text on lines of its own. -/
theorem leads_literalLines (hne : text ≠ []) (htext : ∀ c ∈ text, IsLiteral c) {k n : Nat}
    {tail : List Char} (hn : n ≤ k) (htail : Begins tail) (hcolumn : k < column) :
    Leads 1
      (Awaits (closeLine (literalChars (k + 2) text) ++ (indentation n ++ tail)) column before
        (k :: indents) keyAllowed)
      (some (Awaits tail n (before ++ [.scalar .literal text]) (k :: indents) true)) := by
  have hinside := isInside_of_le (Nat.le_of_lt hcolumn) indents
  have hread := BlockScalar.exists_take?_eq htext hne hn htail.not_atGap
  obtain ⟨rest, hwritten⟩ :
      ∃ rest, closeLine (literalChars (k + 2) text) ++ (indentation n ++ tail) = '|' :: rest :=
    ⟨_, by rw [closeLine_literalChars]; rfl⟩
  rw [hwritten] at hread ⊢
  refine leads_of_awaits hinside fun s hs => ?_
  obtain ⟨t, hdrop, ht⟩ := hs.dropKey?
  obtain ⟨m', hread, hm'⟩ := hread t.mark
  have hcursor := cursor_eq hs.rest
  have htoken : s.token? '|' rest = s.blockScalar? .literal := by
    simp [token?, hcursor, Cursor.atIndicator_of_ne, hs.inFlow]
  have htake : BlockScalar.take? ((.literal : ScalarStyle) = .folded) t.indent t.cursor =
      some (text, ⟨tail, m'⟩) := by
    have hindent : t.indent = k := by rw [indent, ht.indents]
    rw [← hread, hindent, ← ht.rest]
    rfl
  -- The reader of the text has passed its last line end, and the indentation of the line below.
  have hbehind : IsIn tail n (before ++ [.scalar .literal text]) (k :: indents) true
      { t.emit (.scalar .literal text) t.mark m' with
        cursor := ⟨tail, m'⟩
        keyAllowed := true } :=
    { ht with
      rest := rfl
      column := hm'
      kinds := by
        rw [← ht.kinds]
        exact kinds_emit ..
      keyAllowed := rfl }
  refine ⟨_, ?_, IsIn.awaits_indentation (n := 0) hbehind htail⟩
  rw [htoken, blockScalar?, hdrop]
  show (BlockScalar.take? ((.literal : ScalarStyle) = .folded) t.indent t.cursor).bind _ = _
  rw [htake]
  rfl

/-- A text on a line starts a token, whatever its style. -/
theorem begins_textLine (k : Nat) (s : String) (behind : List Char) :
    Begins (textLine k s ++ behind) := by
  rw [textLine]
  cases hstyle : Style.ofText s with
  | plain =>
    have hmark : s.toList.head? ≠ some '\ufeff' :=
      Style.head?_ne_of_ofText (by rw [hstyle]; decide)
    show Begins (s.toList ++ ['\n'] ++ behind)
    rw [List.append_assoc]
    exact begins_of_isPlain (Style.isPlain_of_ofText hstyle) hmark _
  | singleQuoted => rfl
  | literal =>
    show Begins (closeLine (literalChars k s.toList) ++ behind)
    rw [closeLine_literalChars]
    rfl
  | doubleQuoted => rfl

/-- The token of a text. -/
def textKind (s : String) : TokenKind :=
  .scalar (Style.ofText s).scalarStyle s.toList

/-- A text in its style. -/
theorem leads_textLine {k n : Nat} {tail : List Char} (hn : n ≤ k) (htail : Begins tail)
    (hcolumn : k < column) (text : String) :
    Leads 1
      (Awaits (textLine (k + 2) text ++ (indentation n ++ tail)) column before (k :: indents)
        keyAllowed)
      (some (Awaits tail n (before ++ [textKind text]) (k :: indents) true)) := by
  rw [textLine, textKind]
  -- The style decides how the text is read back; what the choice tells of the text is just what
  -- each reader needs.
  cases hstyle : Style.ofText text with
  | plain =>
    have hmark : text.toList.head? ≠ some '\ufeff' :=
      Style.head?_ne_of_ofText (by rw [hstyle]; decide)
    show Leads 1 (Awaits (text.toList ++ ['\n'] ++ _) _ _ _ _) _
    rw [List.append_assoc]
    exact leads_plainLine (Style.isPlain_of_ofText hstyle) hmark hn htail hcolumn
  | singleQuoted =>
    have hquotable := Style.isQuotable_of_ofText hstyle (.inl (Nat.succ_pos (k + 1)))
    have htake := QuotedScalar.take?_singleQuotedChars hquotable
      (Style.isChain_isApart_of_ofText hstyle)
      (show ('\n' :: indentation n ++ tail).head? ≠ some '\'' by simp)
    show Leads 1 (Awaits (singleQuotedChars (k + 2) text.toList ++ ['\n'] ++ _) _ _ _ _) _
    rw [List.append_assoc]
    exact leads_quotedLine (.inl ⟨rfl, rfl⟩) htake htail hcolumn
  | literal =>
    have hne : text.toList ≠ [] := List.ne_nil_of_mem (Style.admits_of_literal hstyle).1
    exact leads_literalLines hne (Style.isLiteral_of_ofText hstyle) hn htail hcolumn
  | doubleQuoted =>
    have htake := QuotedScalar.take?_doubleQuotedChars text.toList
      ('\n' :: indentation n ++ tail)
    show Leads 1 (Awaits (doubleQuotedChars text.toList ++ ['\n'] ++ _) _ _ _ _) _
    rw [List.append_assoc]
    exact leads_quotedLine (.inr ⟨rfl, rfl⟩) htake htail hcolumn

/-- The space in front of a scalar is passed over. -/
theorem Leads.behindSpace {cs : List Char} {m : Nat} {post : Option (Scanner → Prop)}
    (h : Leads m (Awaits cs (column + 1) before indents keyAllowed) post) (hcs : Begins cs) :
    Leads m (IsIn (' ' :: cs) column before indents keyAllowed) post :=
  h.of_imp fun _ hs => IsIn.awaits_indentation (n := 1) hs hcs

/-- The space or the break in front of a collection is passed over. -/
theorem Leads.behindOpening {cs : List Char} {i m : Nat} {post : Option (Scanner → Prop)}
    {sameLine : Bool} (h : Leads m (Awaits cs i before indents true) post) (hcs : Begins cs)
    (hcolumn : sameLine = true → column + 1 = i) :
    Leads m (IsIn (opening sameLine i ++ cs) column before indents sameLine) post := by
  cases sameLine with
  | false => exact h.of_imp fun s hs => hs.awaits_line hcs
  | true =>
    obtain rfl := hcolumn rfl
    exact h.behindSpace hcs

end Scalars

/-! ### Keys -/

/-- The scanner stands in front of a colon, behind a scalar that started in this column and may be a
    key. -/
structure IsBehindKey (cs : List Char) (column : Nat) (before : List TokenKind) (kind : TokenKind)
    (indents : List Nat) (s : Scanner) : Prop where
  rest : s.cursor.rest = ':' :: cs
  kinds : s.kinds = before ++ [kind]
  indents : s.indents = indents
  keyAllowed : s.keyAllowed = false
  outerKeys : s.outerKeys = []
  key : ∃ k, s.key = some k ∧ k.position = before.length ∧ k.mark.column = column ∧
    column < s.mark.column ∧ k.isStale s.mark = false

section Keys

variable {cs : List Char} {column : Nat} {before : List TokenKind} {kind : TokenKind}
  {indents : List Nat}

/-- Inside the innermost block there is none to be closed. -/
theorem closeDeeper_eq_self {mark : Mark} {tokens : List Token} (h : IsInside column indents) :
    closeDeeper column mark indents tokens = (indents, tokens) := by
  cases indents with
  | nil => rfl
  | cons i indents =>
    have hle : i ≤ column := h i rfl
    rw [closeDeeper, if_neg (by omega)]

/-- On the way to the colon the key is kept. -/
theorem IsBehindKey.approach?_eq {s : Scanner} (h : s.IsBehindKey cs column before kind indents)
    (hinside : IsInside column indents) : s.approach? = some s := by
  obtain ⟨k, hkey, -, -, hlt, hstale⟩ := h.key
  have hflow := inFlow_of_outerKeys h.outerKeys
  have hskip : skipToToken false (s.cursor.rest.length + 1) s.keyAllowed s.cursor =
      (s.keyAllowed, s.cursor) := by
    rw [cursor_eq h.rest]
    have hbegins : Begins (':' :: cs) := rfl
    exact skipToToken_indentation hbegins 0 _ s.keyAllowed s.mark
  have hdrop : s.dropStaleKeys? = some s := by
    have hfresh : fresh? s.mark s.key = some s.key := by
      rw [hkey]
      simp [fresh?, hstale]
    have houter : s.outerKeys.mapM (fresh? s.mark) = some s.outerKeys := by
      rw [h.outerKeys]
      rfl
    rw [dropStaleKeys?, hfresh, houter]
    rfl
  -- The scanner stands further to the right than the key, inside every block that is open.
  have hclose : s.closeBlocks s.mark.column = s := by
    have hinside : IsInside s.mark.column indents := fun i hi =>
      Nat.le_trans (hinside i hi) (Nat.le_of_lt hlt)
    rw [closeBlocks, hflow, h.indents, closeDeeper_eq_self hinside, ← h.indents]
    rfl
  rw [approach?, hflow, hskip]
  show s.dropStaleKeys?.bind _ = _
  rw [hdrop, Option.bind_some, hclose]

/-- A colon behind a key that has not become stale, which opens a mapping. -/
theorem leads_colon (hgap : atGap cs) (hinside : IsInside column indents) :
    Leads 1 (IsBehindKey cs column before kind indents)
      (some fun t => ∃ column', column < column' ∧
        t.IsIn cs column'
          (before ++ openings .blockMappingStart column indents ++ [.key, kind, .value])
          (openedAt column indents) false) := by
  intro s hs
  obtain ⟨k, hkey, hposition, hcolumn, hlt, -⟩ := hs.key
  have hcursor := cursor_eq hs.rest
  -- The mapping opens at the column of the key, and its start is put in front of the key.
  obtain ⟨tokens, hopen, htokens⟩ := exists_openBlock_eq
    (s := s.insertAt before.length ⟨.key, k.mark, k.mark⟩) hs.outerKeys
    (kinds_insertAt hs.kinds _) column .blockMappingStart k.mark
  have hbehind : IsIn (':' :: cs) s.mark.column
      (before ++ openings .blockMappingStart column s.indents ++ [.key, kind])
      (openedAt column s.indents) false
      { s with tokens, indents := openedAt column s.indents, key := none, keyAllowed := false } :=
    ⟨hs.rest, rfl, htokens, rfl, rfl, rfl, hs.outerKeys⟩
  have htoken : s.token? ':' cs = s.valueToken? := by
    have hdash := not_atIndicator_of_atGap (c := ':') (m := s.mark) hgap (.inl rfl)
    have hpoint := not_atIndicator_of_atGap (c := ':') (m := s.mark) hgap (.inr rfl)
    simp [token?, hcursor, hdash, hpoint, hgap]
  have hvalue : s.valueToken? = some
      (emitSkip { s with
        tokens
        indents := openedAt column s.indents
        key := none
        keyAllowed := false } .value 1) := by
    rw [valueToken?, hkey]
    simp only [hposition, hcolumn, hopen]
    rfl
  have hemit := hbehind.emitSkip .value
  rw [List.append_assoc, hs.indents] at hemit
  rw [hs.indents] at hvalue
  refine ⟨1, Nat.le_refl 1, _, ⟨s.mark.column + 1, by omega, hemit⟩, fun fuel => ?_⟩
  rw [run?, hs.approach?_eq hinside, Option.bind_eq_bind, Option.bind_some]
  simp only [hs.rest, htoken, hvalue, Option.bind_some]

/-- A short key may still be one behind its last character. -/
theorem IsIn.isBehindKey {s : Scanner} {key : String}
    (hs : s.IsIn (keyChars key ++ ':' :: cs) column before indents true)
    (h : Style.admitsSimpleKey key) (kind : TokenKind) (stop : Mark) :
    IsBehindKey cs column before kind indents
      (s.behindScalar kind stop ⟨':' :: cs, s.mark.after (keyChars key)⟩ false) := by
  have hline : ∀ c ∈ keyChars key, isBreak c = false := fun c hc => (forall_mem_keyChars h c hc).2
  have hlength := List.length_pos_iff.2 (keyChars_ne_nil key)
  refine ⟨rfl, ?_, hs.indents, rfl, hs.outerKeys, ?_⟩
  · rw [← hs.kinds]
    exact kinds_emit ..
  · refine ⟨⟨s.indent = s.mark.column, s.tokens.length, s.mark⟩, ?_, hs.length_tokens,
      hs.column, ?_, ?_⟩
    · exact if_pos hs.keyAllowed
    · show column < (s.mark.after (keyChars key)).column
      rw [Mark.column_after _ hline, hs.column]
      omega
    · -- The key is on one line and shorter than the limit, so that it is not stale at the colon.
      have hlines := (Mark.line_after_eq_iff s.mark (keyChars key)).2 hline
      have hoffset := Mark.offset_after s.mark (keyChars key)
      have hshort := byteLength_keyChars_le h
      show (decide (s.mark.line < (s.mark.after (keyChars key)).line) ||
        decide (s.mark.offset + 1024 < (s.mark.after (keyChars key)).offset)) = false
      rw [hlines, hoffset, Bool.or_eq_false_iff, decide_eq_false_iff_not, decide_eq_false_iff_not]
      omega

/-- A short key stands for its text in front of a colon. -/
theorem isScalar_keyChars {key : String} (h : Style.admitsSimpleKey key) (hgap : atGap cs)
    (indent : Int) :
    IsScalar indent (keyChars key) (':' :: cs) (textKind key) (fun m => ⟨':' :: cs, m⟩) false := by
  obtain ⟨hline, hliteral⟩ := ofText_ne_literal_of_admitsSimpleKey h
  rw [keyChars, textKind]
  -- A key is on one line, which rules the literal style out and needs no indentation.
  cases hstyle : Style.ofText key with
  | plain =>
    have hmark : key.toList.head? ≠ some '\ufeff' :=
      Style.head?_ne_of_ofText (by rw [hstyle]; decide)
    exact isScalar_plain (Style.isPlain_of_ofText hstyle) hmark (.colon hgap)
  | singleQuoted =>
    have hquotable : ∀ c ∈ key.toList, IsQuotable 0 c :=
      Style.isQuotable_of_ofText hstyle (.inr hline)
    exact isScalar_quoted (.inl ⟨rfl, rfl⟩) (QuotedScalar.take?_singleQuotedChars hquotable
      (Style.isChain_isApart_of_ofText hstyle) (by simp))
  | literal => exact absurd hstyle hliteral
  | doubleQuoted =>
    exact isScalar_quoted (.inr ⟨rfl, rfl⟩) (QuotedScalar.take?_doubleQuotedChars key.toList _)

/-- A short key and its colon. -/
theorem leads_simpleKey {key : String} (h : Style.admitsSimpleKey key) (hgap : atGap cs)
    (hinside : IsInside column indents) :
    Leads 2 (Awaits (keyChars key ++ ':' :: cs) column before indents true)
      (some fun t => ∃ column', column < column' ∧
        t.IsIn cs column'
          (before ++ openings .blockMappingStart column indents ++ [.key, textKind key, .value])
          (openedAt column indents) false) := by
  have hscalar : Leads 1 (Awaits (keyChars key ++ ':' :: cs) column before indents true)
      (some (IsBehindKey cs column before (textKind key) indents)) := by
    obtain ⟨c, rest, heq, -, -⟩ := isScalar_keyChars h hgap 0
    rw [heq]
    refine leads_of_awaits hinside fun s hs => ?_
    -- A key may stand at the indentation of the block itself.
    have hindent : s.indent ≤ column := by
      rw [indent, hs.indents]
      cases indents with
      | nil => exact Int.le_trans (by decide) (Int.natCast_nonneg column)
      | cons i indents => exact Int.ofNat_le.2 (hinside i rfl)
    obtain ⟨c', rest', heq', -, htoken⟩ := isScalar_keyChars h hgap s.indent
    obtain ⟨rfl, rfl⟩ := List.cons.inj (heq.symm.trans heq')
    obtain ⟨stop, htoken⟩ := htoken s column before indents true (heq ▸ hs) rfl hindent
    exact ⟨_, htoken, IsIn.isBehindKey (heq ▸ hs) h _ stop⟩
  exact hscalar.trans (leads_colon hgap hinside)

end Keys

/-! ### Brackets with nothing between them -/

/-- The scanner behind an opening bracket.  The place in front of it is kept as that of a key. -/
def insideBrackets (s : Scanner) (start : TokenKind) : Scanner :=
  { s.keySaved.emitSkip start 1 with
    key := none, outerKeys := [s.keySaved.key], keyAllowed := true }

/-- The scanner behind the closing bracket that follows. -/
def behindBrackets (s : Scanner) (start stop : TokenKind) : Scanner :=
  { (s.insideBrackets start).emitSkip stop 1 with
    key := s.keySaved.key, outerKeys := [], keyAllowed := false }

section Brackets

variable {s : Scanner} {first last : Char} {start stop : TokenKind} {cs tail : List Char}
  {k n column : Nat} {before : List TokenKind} {indents : List Nat} {keyAllowed : Bool}

/-- Behind an opening bracket the cursor has passed it. -/
theorem IsIn.cursor_insideBrackets
    (hs : s.IsIn (first :: cs) column before indents keyAllowed) (start : TokenKind) :
    (s.insideBrackets start).cursor = ⟨cs, s.mark.next first⟩ := by
  show s.cursor.skip 1 = _
  rw [cursor_eq hs.rest]
  rfl

/-- Behind the opening bracket nothing is passed over or forgotten. -/
theorem IsIn.approach?_insideBrackets
    (hs : s.IsIn (first :: last :: cs) column before (k :: indents) keyAllowed)
    (hcolumn : k < column) (hfirst : first.utf8Size = 1) (hlast : startsToken last) :
    (s.insideBrackets start).approach? = some (s.insideBrackets start) := by
  have hcursor := hs.cursor_insideBrackets start
  have hflow : (s.insideBrackets start).inFlow = true := rfl
  have hskip : skipToToken true ((s.insideBrackets start).cursor.rest.length + 1)
      (s.insideBrackets start).keyAllowed (s.insideBrackets start).cursor =
        ((s.insideBrackets start).keyAllowed, (s.insideBrackets start).cursor) := by
    rw [hcursor]
    exact skipToToken_of_startsToken hlast ..
  -- A pending key is one character back, on the same line.
  have hfresh : fresh? (s.insideBrackets start).mark s.keySaved.key = some s.keySaved.key := by
    have hmark : (s.insideBrackets start).mark = s.mark.next first := by rw [Scanner.mark, hcursor]
    cases hkey : s.keySaved.key with
    | none => rfl
    | some pending =>
      obtain ⟨-, hpending⟩ := hs.of_mem_keySaved hcolumn hkey
      simp [fresh?, PendingKey.isStale, hmark, hpending, hfirst]
  have hdrop : (s.insideBrackets start).dropStaleKeys? = some (s.insideBrackets start) := by
    have houter : (s.insideBrackets start).outerKeys.mapM (fresh? (s.insideBrackets start).mark) =
        some (s.insideBrackets start).outerKeys := by
      show [s.keySaved.key].mapM _ = some [s.keySaved.key]
      rw [List.mapM_cons, hfresh]
      rfl
    rw [dropStaleKeys?, houter]
    rfl
  rw [approach?, hflow, hskip]
  show (s.insideBrackets start).dropStaleKeys?.bind _ = _
  rw [hdrop, Option.bind_some, Scanner.closeBlocks, hflow]
  rfl

/-- Two characters are brackets that belong together, and these are their tokens. -/
def AreBrackets (first last : Char) (start stop : TokenKind) : Prop :=
  first = '[' ∧ last = ']' ∧ start = .flowSequenceStart ∧ stop = .flowSequenceEnd ∨
    first = '\x7b' ∧ last = '\x7d' ∧ start = .flowMappingStart ∧ stop = .flowMappingEnd

/-- The scanner stands between two brackets. -/
def IsBetween (start : TokenKind) (cs : List Char) (column : Nat) (before : List TokenKind)
    (indents : List Nat) (keyAllowed : Bool) (t : Scanner) : Prop :=
  ∃ s : Scanner, t = s.insideBrackets start ∧ s.IsIn cs column before indents keyAllowed

/-- The scanner steps into empty brackets. -/
theorem leads_openingBracket (hkind : AreBrackets first last start stop) (hcolumn : k < column) :
    Leads 1 (Awaits (first :: last :: cs) column before (k :: indents) keyAllowed)
      (some (IsBetween start (first :: last :: cs) column before (k :: indents) keyAllowed)) := by
  have hinside := isInside_of_le (Nat.le_of_lt hcolumn) indents
  refine leads_of_awaits hinside fun s hs => ⟨s.insideBrackets start, ?_, s, rfl, hs⟩
  have hcursor := cursor_eq hs.rest
  have htoken : s.token? first (last :: cs) = s.openFlow? start := by
    rcases hkind with ⟨rfl, -, rfl, -⟩ | ⟨rfl, -, rfl, -⟩ <;>
      simp [token?, hcursor, Cursor.atIndicator_of_ne]
  have houter : s.keySaved.outerKeys = [] := hs.outerKeys
  rw [htoken, openFlow?, hs.saveKey?_eq, insideBrackets, ← houter]
  rfl

/-- Behind the closing bracket the line ends. -/
theorem IsIn.awaits_behindBrackets
    (hs : s.IsIn (first :: last :: ('\n' :: indentation n ++ tail)) column before (k :: indents)
      keyAllowed) (htail : Begins tail) (hcolumn : k < column) :
    Awaits tail n (before ++ [start, stop]) (k :: indents) true (s.behindBrackets start stop) := by
  have hcursor : (s.behindBrackets start stop).cursor =
      ⟨'\n' :: indentation n ++ tail, (s.mark.next first).next last⟩ := by
    show (s.insideBrackets start).cursor.skip 1 = _
    rw [hs.cursor_insideBrackets start]
    rfl
  have hkinds : (s.behindBrackets start stop).kinds = before ++ [start, stop] := by
    have hstart : (s.insideBrackets start).kinds = s.kinds ++ [start] := kinds_emit ..
    rw [List.append_cons, ← hs.kinds, ← hstart]
    exact kinds_emit ..
  -- The key that was pending in front of the brackets is a line above.
  have hkey : ∀ pending ∈ (s.behindBrackets start stop).key, pending.required = false ∧
      pending.mark.line <
        (((s.mark.next first).next last).after ('\n' :: indentation n)).line := by
    intro pending hpending
    obtain ⟨hrequired, hmark⟩ := hs.of_mem_keySaved hcolumn hpending
    rw [hmark]
    exact ⟨hrequired,
      Mark.line_lt_line_after ((s.mark.next first).next last) ⟨'\n', by simp, rfl⟩⟩
  have hawaits := awaits_of_skipToToken (s := s.behindBrackets start stop) rfl
    (by rw [hcursor]; exact skipToToken_line htail n _ _ _) hkey
  rw [column_after_indentation, hkinds] at hawaits
  rw [← hs.indents]
  exact hawaits

/-- The scanner steps out of empty brackets, to what stands on the next line. -/
theorem leads_closingBracket (hkind : AreBrackets first last start stop) (htail : Begins tail)
    (hcolumn : k < column) :
    Leads 1
      (IsBetween start (first :: last :: ('\n' :: indentation n ++ tail)) column before
        (k :: indents) keyAllowed)
      (some (Awaits tail n (before ++ [start, stop]) (k :: indents) true)) := by
  rintro _ ⟨s, rfl, hs⟩
  have happroach : (s.insideBrackets start).approach? = some (s.insideBrackets start) := by
    apply hs.approach?_insideBrackets hcolumn <;>
      rcases hkind with ⟨rfl, rfl, -⟩ | ⟨rfl, rfl, -⟩ <;> rfl
  have hcursor := hs.cursor_insideBrackets start
  have hclose : (s.insideBrackets start).token? last ('\n' :: indentation n ++ tail) =
      (s.insideBrackets start).closeFlow? stop := by
    rcases hkind with ⟨-, rfl, -, rfl⟩ | ⟨-, rfl, -, rfl⟩ <;>
      simp [token?, hcursor, Cursor.atIndicator_of_ne]
  have htoken : (s.insideBrackets start).token? last ('\n' :: indentation n ++ tail) =
      some (s.behindBrackets start stop) := by
    rw [hclose]
    rfl
  refine ⟨1, Nat.le_refl 1, s.behindBrackets start stop,
    hs.awaits_behindBrackets htail hcolumn, fun fuel => ?_⟩
  rw [run?, happroach, Option.bind_eq_bind, Option.bind_some]
  simp only [hcursor, htoken, Option.bind_some]

/-- Two brackets with nothing between them, on the rest of a line. -/
theorem leads_emptyBrackets (hkind : AreBrackets first last start stop) (htail : Begins tail)
    (hcolumn : k < column) :
    Leads 2
      (Awaits (first :: last :: ('\n' :: indentation n ++ tail)) column before (k :: indents)
        keyAllowed)
      (some (Awaits tail n (before ++ [start, stop]) (k :: indents) true)) :=
  (leads_openingBracket hkind hcolumn).trans (leads_closingBracket hkind htail hcolumn)

end Brackets

end Scanner

end MachineTuning.Yaml
