import MachineTuning.Proofs.Yaml.Scanner
import MachineTuning.Proofs.Yaml.Written.Plain

namespace MachineTuning.Yaml

/-!
# Scanning blocks — what a scanner does between the lines of a document

`Scanner.IsIn` describes the states outside of all brackets, with the columns of the open blocks.
`Scanner.Awaits` looks at the token that comes next, past blanks and breaks: the blocks that lie
deeper than it are closed in front of it.

* `leads_of_awaits` — a token is read where it is awaited;
* `leads_indicator` — dashes and marks open blocks;
* `run?_awaits_nil` — the end closes them.
-/

namespace Scanner

/-! ### States -/

/-- The scanner stands in front of these characters in this column, behind tokens of these kinds,
    inside the blocks at these columns and in no brackets.  No key is pending. -/
structure IsIn (cs : List Char) (column : Nat) (kinds : List TokenKind) (indents : List Nat)
    (keyAllowed : Bool) (s : Scanner) : Prop where
  rest : s.cursor.rest = cs
  column : s.mark.column = column
  kinds : s.kinds = kinds
  indents : s.indents = indents
  keyAllowed : s.keyAllowed = keyAllowed
  key : s.key = none
  outerKeys : s.outerKeys = []

/-- A token starts here, or the text is over. -/
def Begins (cs : List Char) : Prop :=
  cs.head?.all startsToken

/-- The tokens that close the blocks that lie deeper than a column. -/
def closings (column : Int) (indents : List Nat) : List TokenKind :=
  (indents.takeWhile fun i : Nat => column < i).map fun _ => .blockEnd

/-- The blocks that do not. -/
def leftOpen (column : Int) (indents : List Nat) : List Nat :=
  indents.dropWhile fun i : Nat => column < i

/-- The next token starts at these characters, in this column, and the blocks that lie deeper than
    that are still to be closed. -/
def Awaits (cs : List Char) (column : Nat) (before : List TokenKind) (indents : List Nat)
    (keyAllowed : Bool) (s : Scanner) : Prop :=
  ∃ t, s.approach? = some t ∧
    t.IsIn cs column (before ++ closings column indents) (leftOpen column indents) keyAllowed

section States

variable {s : Scanner} {cs tail : List Char} {c : Char} {m : Mark} {column n indent : Nat}
  {before : List TokenKind} {indents : List Nat} {keyAllowed : Bool}

/-- What starts a token stands at no gap. -/
theorem Begins.not_atGap (h : Begins cs) (hne : cs ≠ []) : atGap cs = false := by
  cases cs with
  | nil => exact absurd rfl hne
  | cons c cs =>
    have hc : startsToken c = true := h
    simp only [startsToken, Bool.and_eq_true, Bool.not_eq_true'] at hc
    rw [atGap, hc.1.1.1, hc.1.1.2]
    rfl

/-- A cursor is what is left to scan and the place where it stands. -/
theorem cursor_eq (h : s.cursor.rest = cs) : s.cursor = ⟨cs, s.mark⟩ := by
  rw [← h]
  rfl

/-- Outside of all brackets there is no flow. -/
theorem inFlow_of_outerKeys (h : s.outerKeys = []) : s.inFlow = false := by
  rw [Scanner.inFlow, h]
  rfl

/-- Between blocks there is no flow. -/
theorem IsIn.inFlow (h : s.IsIn cs column before indents keyAllowed) : s.inFlow = false :=
  inFlow_of_outerKeys h.outerKeys

/-- Whether the next token stands in the innermost block, or deeper. -/
def IsInside (column : Nat) (indents : List Nat) : Prop :=
  ∀ i ∈ indents.head?, i ≤ column

/-- A column right of an indentation is inside its block. -/
theorem isInside_of_le (h : indent ≤ column) (indents : List Nat) :
    IsInside column (indent :: indents) := by
  rintro i ⟨⟩
  exact h

/-- A block that lies deeper is closed. -/
theorem Awaits.close (h : s.Awaits cs column before (indent :: indents) keyAllowed)
    (hlt : column < indent) : s.Awaits cs column (before ++ [.blockEnd]) indents keyAllowed := by
  obtain ⟨t, happroach, ht⟩ := h
  refine ⟨t, happroach, ?_⟩
  simpa [closings, leftOpen, hlt] using ht

/-- The blocks that are deeper than a column are closed, the innermost first. -/
theorem closeDeeper_eq (column : Int) (mark : Mark) (indents : List Nat) (tokens : List Token) :
    (closeDeeper column mark indents tokens).1 = leftOpen column indents ∧
      ((closeDeeper column mark indents tokens).2.reverse.map (·.kind)) =
        tokens.reverse.map (·.kind) ++ closings column indents := by
  induction indents generalizing tokens with
  | nil => simp [closeDeeper, closings, leftOpen]
  | cons indent indents ih =>
    rw [closeDeeper]
    by_cases hlt : column < indent
    · obtain ⟨hindents, htokens⟩ := ih (⟨.blockEnd, mark, mark⟩ :: tokens)
      rw [if_pos hlt, hindents, htokens]
      simp [closings, leftOpen, hlt]
    · rw [if_neg hlt]
      simp [closings, leftOpen, hlt]

/-- The blocks are closed that lie deeper than the place. -/
theorem IsIn.closeBlocks (h : s.IsIn cs column before indents keyAllowed) (column' : Int) :
    (s.closeBlocks column').IsIn cs column (before ++ closings column' indents)
      (leftOpen column' indents) keyAllowed := by
  obtain ⟨hindents, htokens⟩ := closeDeeper_eq column' s.mark s.indents s.tokens
  have hclose : s.closeBlocks column' =
      { s with
        indents := (closeDeeper column' s.mark s.indents s.tokens).1
        tokens := (closeDeeper column' s.mark s.indents s.tokens).2 } := by
    rw [Scanner.closeBlocks, h.inFlow]
    rfl
  rw [hclose]
  refine { h with kinds := ?_, indents := ?_ }
  · show (closeDeeper column' s.mark s.indents s.tokens).2.reverse.map (·.kind) = _
    rw [htokens, h.indents, ← h.kinds]
    rfl
  · show (closeDeeper column' s.mark s.indents s.tokens).1 = _
    rw [hindents, h.indents]

/-- The way to the next token, on which keys on earlier lines are forgotten. -/
theorem awaits_of_skipToToken (houter : s.outerKeys = [])
    (hskip : skipToToken false (s.cursor.rest.length + 1) s.keyAllowed s.cursor =
      (keyAllowed, ⟨cs, m⟩))
    (hkey : ∀ k ∈ s.key, k.required = false ∧ k.mark.line < m.line) :
    s.Awaits cs m.column s.kinds s.indents keyAllowed := by
  have hflow := inFlow_of_outerKeys houter
  -- The pending key is on an earlier line and not required, so that it is forgotten without a
  -- fault.
  have hfresh : fresh? m s.key = some none := by
    cases hpending : s.key with
    | none => rfl
    | some k =>
      obtain ⟨hrequired, hline⟩ := hkey k hpending
      simp [fresh?, PendingKey.isStale, hrequired, hline]
  have hsettled : IsIn cs m.column s.kinds s.indents keyAllowed
      { s with keyAllowed, cursor := ⟨cs, m⟩, key := none, outerKeys := [] } :=
    ⟨rfl, rfl, rfl, rfl, rfl, rfl, rfl⟩
  refine ⟨_, ?_, hsettled.closeBlocks m.column⟩
  rw [approach?, hflow, hskip]
  simp [dropStaleKeys?, Scanner.mark, hfresh, houter]

/-- Spaces are passed over, and the break behind them if there is one. -/
theorem skipToToken_spaces (hcs : ∀ d ∈ [' ', '\t', '#', '\ufeff'], cs.head? ≠ some d)
    (n fuel : Nat) (keyAllowed : Bool) (m : Mark) :
    skipToToken false (fuel + 1) keyAllowed ⟨indentation n ++ cs, m⟩ =
      match Cursor.takeBreak? ⟨cs, m.after (indentation n)⟩ with
      | some (_, cur) => skipToToken false fuel true cur
      | none => (keyAllowed, ⟨cs, m.after (indentation n)⟩) := by
  -- A byte order mark is passed over at the start of a line only; here there is none.
  have hmark : (indentation n ++ cs).head? ≠ some '\ufeff' := by
    cases n with
    | zero => exact hcs '\ufeff' (by simp)
    | succ n => simp [indentation, List.replicate_succ]
  have hblank :
      cs.head?.any (fun c => c = ' ' || ((false || !keyAllowed) && c = '\t')) = false := by
    have hspace := hcs ' ' (by simp)
    have htab := hcs '\t' (by simp)
    cases cs with
    | nil => rfl
    | cons c cs =>
      rw [List.head?_cons, ne_eq, Option.some.injEq] at hspace htab
      simp [hspace, htab]
  have hskip : Cursor.skipWhile (fun c => c = ' ' || ((false || !keyAllowed) && c = '\t'))
      ⟨indentation n ++ cs, m⟩ = ⟨cs, m.after (indentation n)⟩ := by
    rw [Cursor.skipWhile, Cursor.takeWhile_append _ hblank]
    exact fun c hc => ⟨by simp [mem_indentation hc], not_isBreak_of_mem_indentation c hc⟩
  have hcomment : cs.head? ≠ some '#' := hcs '#' (by simp)
  rw [skipToToken]
  cases hbreak : Cursor.takeBreak? ⟨cs, m.after (indentation n)⟩ with
  | none => simp only [hmark, and_false, if_false, hskip, hcomment, hbreak]
  | some taken =>
    simp only [hmark, and_false, if_false, hskip, hcomment, hbreak, Bool.not_false, Bool.or_true]

/-- What starts a token starts with no character that does not. -/
theorem Begins.head?_ne (h : Begins cs) {d : Char} (hd : startsToken d = false) :
    cs.head? ≠ some d := by
  intro heq
  have hbegins : cs.head?.all startsToken := h
  rw [heq, Option.all_some, hd] at hbegins
  cases hbegins

/-- Indentation is passed over, and keys are allowed as before. -/
theorem skipToToken_indentation (hcs : Begins cs) (n fuel : Nat) (keyAllowed : Bool) (m : Mark) :
    skipToToken false (fuel + 1) keyAllowed ⟨indentation n ++ cs, m⟩ =
      (keyAllowed, ⟨cs, m.after (indentation n)⟩) := by
  have hbreak : Cursor.takeBreak? ⟨cs, m.after (indentation n)⟩ = none := by
    cases cs with
    | nil => rfl
    | cons c cs =>
      apply Cursor.takeBreak?_of_not_isBreak
      have hgap := hcs.not_atGap (List.cons_ne_nil c cs)
      exact (Bool.or_eq_false_iff.1 hgap).2
  have hne : ∀ d ∈ [' ', '\t', '#', '\ufeff'], cs.head? ≠ some d := by
    have hnot : ∀ d ∈ [' ', '\t', '#', '\ufeff'], startsToken d = false := by decide
    exact fun d hd => hcs.head?_ne (hnot d hd)
  rw [skipToToken_spaces hne, hbreak]

/-- A line break and indentation are passed over, and a key is allowed behind them. -/
theorem skipToToken_line (hcs : Begins cs) (n fuel : Nat) (keyAllowed : Bool) (m : Mark) :
    skipToToken false (fuel + 2) keyAllowed ⟨'\n' :: indentation n ++ cs, m⟩ =
      (true, ⟨cs, m.after ('\n' :: indentation n)⟩) := by
  have hbreak : ∀ d ∈ [' ', '\t', '#', '\ufeff'],
      ('\n' :: indentation n ++ cs).head? ≠ some d := by simp
  have hline := skipToToken_spaces hbreak 0 (fuel + 1) keyAllowed m
  refine hline.trans ?_
  rw [List.cons_append, Cursor.takeBreak?_of_isBreak rfl (by decide)]
  exact skipToToken_indentation hcs n fuel true _

/-- The next token stands on the line. -/
theorem IsIn.awaits_indentation (h : s.IsIn (indentation n ++ cs) column before indents keyAllowed)
    (hcs : Begins cs) : s.Awaits cs (column + n) before indents keyAllowed := by
  have hcolumn : (s.mark.after (indentation n)).column = column + n := by
    rw [column_after_spaces, h.column]
  have hkey : ∀ k ∈ s.key,
      k.required = false ∧ k.mark.line < (s.mark.after (indentation n)).line := by
    rw [h.key]
    nofun
  rw [← hcolumn, ← h.kinds, ← h.indents, ← h.keyAllowed]
  refine awaits_of_skipToToken h.outerKeys ?_ hkey
  rw [cursor_eq h.rest]
  exact skipToToken_indentation hcs n _ _ _

/-- The next token stands on the next line. -/
theorem IsIn.awaits_line
    (h : s.IsIn ('\n' :: indentation n ++ cs) column before indents keyAllowed) (hcs : Begins cs) :
    s.Awaits cs n before indents true := by
  have hkey : ∀ k ∈ s.key,
      k.required = false ∧ k.mark.line < (s.mark.after ('\n' :: indentation n)).line := by
    rw [h.key]
    nofun
  rw [← column_after_indentation n s.mark, ← h.kinds, ← h.indents]
  refine awaits_of_skipToToken h.outerKeys ?_ hkey
  rw [cursor_eq h.rest]
  exact skipToToken_line hcs n _ _ _

/-- One token, in the innermost block or deeper. -/
theorem leads_of_awaits {post : Scanner → Prop} (hinside : IsInside column indents)
    (htoken : ∀ t : Scanner, t.IsIn (c :: cs) column before indents keyAllowed →
      ∃ u, t.token? c cs = some u ∧ post u) :
    Leads 1 (Awaits (c :: cs) column before indents keyAllowed) (some post) := by
  rintro s ⟨t, happroach, ht⟩
  have hopen : closings column indents = [] ∧ leftOpen column indents = indents := by
    cases indents with
    | nil => exact ⟨rfl, rfl⟩
    | cons i indents =>
      have hle : i ≤ column := hinside i rfl
      simp [closings, leftOpen, hle]
  rw [hopen.1, hopen.2, List.append_nil] at ht
  obtain ⟨u, htoken, hu⟩ := htoken t ht
  refine ⟨1, Nat.le_refl 1, u, hu, fun fuel => ?_⟩
  rw [run?, happroach, Option.bind_eq_bind, Option.bind_some]
  simp only [ht.rest, htoken, Option.bind_some]

/-- The next line lies further out than a block and closes it. -/
theorem Leads.closed {k : Nat} {pre : Scanner → Prop}
    (h : Leads k pre (some (Awaits cs column before (indent :: indents) keyAllowed)))
    (hlt : column < indent) :
    Leads k pre (some (Awaits cs column (before ++ [.blockEnd]) indents keyAllowed)) :=
  h.imp fun _ ht => ht.close hlt

/-! ### Dashes and marks -/

/-- The token that opens a block in a column, unless a block is open there. -/
def openings (kind : TokenKind) (column : Nat) (indents : List Nat) : List TokenKind :=
  if indents.head?.any (column ≤ ·) then [] else [kind]

/-- The open blocks with one in this column. -/
def openedAt (column : Nat) (indents : List Nat) : List Nat :=
  if indents.head?.any (column ≤ ·) then indents else column :: indents

/-- A token is put in behind some others. -/
theorem kinds_insertAt {front back : List TokenKind} (h : s.kinds = front ++ back) (token : Token) :
    (s.insertAt front.length token).kinds = front ++ token.kind :: back := by
  have hlength : s.tokens.reverse.length = (front ++ back).length := by
    rw [← h, kinds, List.length_map]
  have hfront : (s.tokens.reverse.take front.length).map (·.kind) = front := by
    rw [List.map_take]
    exact (congrArg (List.take front.length) h).trans List.take_left
  have hback : (s.tokens.reverse.drop front.length).map (·.kind) = back := by
    rw [List.map_drop]
    exact (congrArg (List.drop front.length) h).trans List.drop_left
  rw [List.take_reverse] at hfront
  rw [List.drop_reverse] at hback
  simp [kinds, insertAt, hfront, hback]

/-- A block is opened in front of a place among the tokens. -/
theorem exists_openBlock_eq (houter : s.outerKeys = []) {front back : List TokenKind}
    (hkinds : s.kinds = front ++ back) (column : Nat) (kind : TokenKind) (mark : Mark) :
    ∃ tokens, s.openBlock column front.length kind mark =
        { s with tokens, indents := openedAt column s.indents } ∧
      tokens.reverse.map (·.kind) = front ++ openings kind column s.indents ++ back := by
  have hflow := inFlow_of_outerKeys houter
  have hindent : (column : Int) ≤ s.indent ↔ s.indents.head?.any (column ≤ ·) := by
    rw [indent]
    cases s.indents with
    | nil => simp; omega
    | cons i indents => simp
  -- A block is opened only further to the right than the innermost one; where none is open,
  -- anywhere.
  by_cases hopen : s.indents.head?.any (column ≤ ·)
  · rw [openings, openedAt, if_pos hopen, if_pos hopen, List.append_nil, openBlock,
      if_pos (.inr (hindent.2 hopen))]
    exact ⟨s.tokens, rfl, hkinds⟩
  · have hnot : ¬(s.inFlow = true ∨ (column : Int) ≤ s.indent) := by
      rw [hflow, hindent]
      simpa using hopen
    rw [openings, openedAt, if_neg hopen, if_neg hopen, List.append_assoc, openBlock, if_neg hnot]
    exact ⟨_, rfl, kinds_insertAt hkinds _⟩

/-- As many tokens were found as their kinds are listed. -/
theorem IsIn.length_tokens (h : s.IsIn cs column before indents keyAllowed) :
    s.tokens.length = before.length := by
  rw [← h.kinds, Scanner.kinds, List.length_map, List.length_reverse]

/-- Where a key is allowed, a block is opened if the column is deeper than the last one. -/
theorem IsIn.startBlock? (h : s.IsIn cs column before indents true) (kind : TokenKind) :
    ∃ t, s.startBlock? kind = some t ∧
      t.IsIn cs column (before ++ openings kind column indents) (openedAt column indents) true := by
  obtain ⟨tokens, hopen, htokens⟩ := exists_openBlock_eq h.outerKeys
    (h.kinds.trans (List.append_nil before).symm) column kind s.mark
  rw [List.append_nil] at htokens
  refine ⟨s.openBlock column before.length kind s.mark, ?_, ?_⟩
  · rw [Scanner.startBlock?, h.inFlow, h.keyAllowed, h.column, h.length_tokens]
    rfl
  · rw [hopen]
    rw [h.indents] at htokens ⊢
    exact { h with kinds := htokens, indents := rfl }

/-- A key that might have started is forgotten. -/
theorem IsIn.dropKey? (h : s.IsIn cs column before indents keyAllowed) :
    ∃ t, s.dropKey? = some t ∧ t.IsIn cs column before indents keyAllowed := by
  refine ⟨{ s with key := none }, ?_, { h with key := rfl }⟩
  rw [Scanner.dropKey?, h.key]
  rfl

/-- A token of one character. -/
theorem IsIn.emitSkip (h : s.IsIn (c :: cs) column before indents keyAllowed) (kind : TokenKind) :
    (s.emitSkip kind 1).IsIn cs (column + 1) (before ++ [kind]) indents keyAllowed := by
  have hskip : s.cursor.skip 1 = ⟨cs, s.mark.next c⟩ := by
    rw [cursor_eq h.rest]
    rfl
  refine { h with rest := ?_, column := ?_, kinds := ?_ }
  · rw [Scanner.emitSkip, hskip]
  · rw [Scanner.mark, Scanner.emitSkip, hskip, Mark.column_next, h.column]
  · rw [← h.kinds]
    exact kinds_emit ..

/-- What three equal characters could start does not start with one and a gap. -/
theorem not_atIndicator_of_atGap (hgap : atGap cs) {d : Char} (hd : d = '-' ∨ d = '.') :
    Cursor.atIndicator d ⟨c :: cs, m⟩ = false := by
  have hne : cs.head? ≠ some d := by
    intro heq
    obtain ⟨rest, rfl⟩ := List.head?_eq_some_iff.1 heq
    rcases hd with rfl | rfl <;> cases hgap
  cases cs with
  | nil => simp [Cursor.atIndicator, List.isPrefixOf?]
  | cons e rest =>
    have hne : d ≠ e := fun heq => hne (by rw [heq]; rfl)
    simp [Cursor.atIndicator, List.isPrefixOf?, hne]

/-- A dash in front of an item, a mark in front of a key, or one in front of its value. -/
theorem leads_indicator {start kind : TokenKind}
    (hkind : c = '-' ∧ start = .blockSequenceStart ∧ kind = .blockEntry ∨
      c = '?' ∧ start = .blockMappingStart ∧ kind = .key ∨
      c = ':' ∧ start = .blockMappingStart ∧ kind = .value)
    (hgap : atGap cs) (hinside : IsInside column indents) :
    Leads 1 (Awaits (c :: cs) column before indents true)
      (some (IsIn cs (column + 1) (before ++ openings start column indents ++ [kind])
        (openedAt column indents) true)) := by
  refine leads_of_awaits hinside fun s hs => ?_
  have hdash (m : Mark) := not_atIndicator_of_atGap (c := c) (m := m) hgap (.inl rfl)
  have hpoint (m : Mark) := not_atIndicator_of_atGap (c := c) (m := m) hgap (.inr rfl)
  have hcursor := cursor_eq hs.rest
  obtain ⟨t, hstart, ht⟩ := hs.startBlock? start
  obtain ⟨u, hdrop, hu⟩ := ht.dropKey?
  -- The three differ in what they do with a pending key, and there is none.
  rcases hkind with ⟨rfl, rfl, rfl⟩ | ⟨rfl, rfl, rfl⟩ | ⟨rfl, rfl, rfl⟩
  · refine ⟨{ u.emitSkip .blockEntry 1 with keyAllowed := true }, ?_,
      { hu.emitSkip .blockEntry with keyAllowed := rfl }⟩
    simp [token?, hcursor, hdash, hpoint, hgap, blockEntry?, hstart, hdrop]
  · refine ⟨{ u.emitSkip .key 1 with keyAllowed := true }, ?_,
      { hu.emitSkip .key with keyAllowed := rfl }⟩
    simp [token?, hcursor, hdash, hpoint, hgap, keyToken?, hstart, hdrop, hu.inFlow]
  · refine ⟨{ t.emitSkip .value 1 with keyAllowed := true }, ?_,
      { ht.emitSkip .value with keyAllowed := rfl }⟩
    simp [token?, hcursor, hdash, hpoint, hgap, valueToken?, hs.key, hstart, ht.inFlow]
    rfl

end States

/-! ### The end -/

/-- At the end of the text, the blocks that are left are closed. -/
theorem run?_awaits_nil {s : Scanner} {column : Nat} {before : List TokenKind} {indents : List Nat}
    {keyAllowed : Bool} (h : s.Awaits [] column before indents keyAllowed) (fuel : Nat) :
    (run? (fuel + 1) s).map (List.map Token.kind) =
      some (before ++ indents.map (fun _ => .blockEnd) ++ [.streamEnd]) := by
  obtain ⟨t, happroach, ht⟩ := h
  generalize hnow :
    (if t.mark.column = 0 then t.mark else ⟨t.mark.offset, t.mark.line + 1, 0⟩) = now
  have hend : IsIn [] now.column (before ++ closings column indents) (leftOpen column indents)
      keyAllowed { t with cursor := ⟨[], now⟩ } :=
    { ht with rest := rfl, column := rfl }
  obtain ⟨u, hdrop, hu⟩ := (hend.closeBlocks (-1)).dropKey?
  have hfinish : t.finish? = some (u.emit .streamEnd now now) := by
    rw [finish?, hnow]
    show (Scanner.dropKey? _).bind _ = _
    rw [hdrop, Option.bind_some]
  -- Some blocks are closed by the column at which the text ends, and the others by the end itself.
  have hclosed : closings column indents ++ closings (-1) (leftOpen column indents) =
      indents.map fun _ => .blockEnd := by
    have hall : ∀ i ∈ leftOpen column indents, decide ((-1 : Int) < (i : Int)) = true := by
      intro i _
      rw [decide_eq_true_eq]
      omega
    rw [closings, closings, List.takeWhile_eq_self_iff.2 hall, leftOpen, ← List.map_append,
      List.takeWhile_append_dropWhile]
  have hkinds := hu.kinds
  rw [List.append_assoc, hclosed] at hkinds
  rw [run?, happroach]
  simp only [Option.bind_eq_bind, Option.bind_some, ht.rest, hfinish, Option.map_some]
  rw [← hkinds]
  exact congrArg some (kinds_emit ..)

end Scanner

end MachineTuning.Yaml
