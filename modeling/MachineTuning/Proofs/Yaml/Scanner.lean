import MachineTuning.Proofs.Yaml.QuotedText
import MachineTuning.Yaml.Token.Scanner

namespace MachineTuning.Yaml

/-!
# Scanning — what single tokens do to a scanner

`Scanner.Leads` is a triple for runs of a scanner: from each state with a precondition, a bounded
number of tokens leads to a state with a postcondition, or makes the run fail.  `Scanner.IsAt`
describes the states in which only brackets are open.  The rules below say what each token of a
document without blocks, anchors and tags does to them.
-/

namespace Scanner

/-! ### States -/

/-- The kinds of the tokens so far, in order. -/
def kinds (s : Scanner) : List TokenKind :=
  s.tokens.reverse.map (·.kind)

/-- The scanner stands in front of these characters at this place, behind tokens of these kinds and
    inside so many brackets, but in no block.  A key may be pending, but none is required. -/
structure IsAt (cs : List Char) (m : Mark) (kinds : List TokenKind) (depth : Nat) (s : Scanner) :
    Prop where
  cursor : s.cursor = ⟨cs, m⟩
  kinds : s.kinds = kinds
  depth : s.outerKeys.length = depth
  indents : s.indents = []
  key : ∀ k ∈ s.key, k.required = false
  outerKeys : ∀ key ∈ s.outerKeys, ∀ k ∈ key, k.required = false

/-- The scanner without its stale keys. -/
def settled (s : Scanner) : Scanner :=
  { s with
    key := s.key.filter fun k => !k.isStale s.mark
    outerKeys := s.outerKeys.map (Option.filter fun k => !k.isStale s.mark) }

section States

variable {s : Scanner} {cs : List Char} {c : Char} {m : Mark} {before : List TokenKind}
  {depth : Nat}

/-- A token is put behind the others. -/
@[simp] theorem kinds_emit (s : Scanner) (kind : TokenKind) (start stop : Mark) :
    (s.emit kind start stop).kinds = s.kinds ++ [kind] := by
  simp [kinds, emit]

/-- A scanner stands at its mark. -/
theorem IsAt.mark (h : s.IsAt cs m before depth) : s.mark = m := by
  rw [Scanner.mark, h.cursor]

/-- Inside brackets a scanner is in the flow. -/
theorem IsAt.inFlow (h : s.IsAt cs m before (depth + 1)) : s.inFlow = true := by
  have hlength := h.depth
  rw [Scanner.inFlow]
  cases hkeys : s.outerKeys with
  | nil =>
    rw [hkeys] at hlength
    cases hlength
  | cons => rfl

/-- A key that is not required is forgotten once it is stale. -/
theorem fresh?_eq_some {key : Option PendingKey} (h : ∀ k ∈ key, k.required = false) (now : Mark) :
    fresh? now key = some (key.filter fun k => !k.isStale now) := by
  cases key with
  | none => rfl
  | some k =>
    have hk : k.required = false := h k rfl
    rw [fresh?, Option.filter_some]
    cases k.isStale now <;> simp [hk]

/-- Keys that are not required are forgotten once they are stale. -/
theorem mapM_fresh?_eq_some {keys : List (Option PendingKey)}
    (h : ∀ key ∈ keys, ∀ k ∈ key, k.required = false) (now : Mark) :
    keys.mapM (fresh? now) = some (keys.map (Option.filter fun k => !k.isStale now)) := by
  induction keys with
  | nil => rfl
  | cons key keys ih =>
    obtain ⟨hkey, hkeys⟩ := List.forall_mem_cons.1 h
    rw [List.mapM_cons, fresh?_eq_some hkey, ih hkeys]
    rfl

/-- Forgetting stale keys changes neither the place nor the tokens. -/
theorem IsAt.settled (h : s.IsAt cs m before depth) : s.settled.IsAt cs m before depth where
  cursor := h.cursor
  kinds := h.kinds
  depth := by rw [Scanner.settled, List.length_map, h.depth]
  indents := h.indents
  key k hk := h.key k (Option.mem_filter_iff.1 hk).1
  outerKeys key hkey k hk := by
    obtain ⟨key, hmem, rfl⟩ := List.mem_map.1 hkey
    exact h.outerKeys key hmem k (Option.mem_filter_iff.1 hk).1

/-! ### The way to the next token -/

/-- The characters that a token between brackets may start with, so that nothing is passed over in
    front of them. -/
def startsToken (c : Char) : Bool :=
  !isBlank c && !isBreak c && c ≠ '#' && c ≠ '\ufeff'

/-- Nothing is passed over in front of a token. -/
theorem skipToToken_of_startsToken (h : startsToken c) (inFlow : Bool) (fuel : Nat)
    (keyAllowed : Bool) :
    skipToToken inFlow (fuel + 1) keyAllowed ⟨c :: cs, m⟩ = (keyAllowed, ⟨c :: cs, m⟩) := by
  simp only [startsToken, isBlank, Bool.and_eq_true, Bool.not_eq_true', Bool.or_eq_false_iff,
    decide_eq_false_iff_not, decide_eq_true_eq] at h
  obtain ⟨⟨⟨⟨hspace, htab⟩, hbreak⟩, hcomment⟩, hmark⟩ := h
  simp [skipToToken, Cursor.skipWhile, Cursor.takeWhile, Cursor.takeWhile.go, hspace, htab,
    hcomment, hmark, Cursor.takeBreak?_of_not_isBreak hbreak]

/-- Nothing is passed over at the end of a text. -/
theorem skipToToken_nil (inFlow : Bool) (fuel : Nat) (keyAllowed : Bool) :
    skipToToken inFlow (fuel + 1) keyAllowed ⟨[], m⟩ = (keyAllowed, ⟨[], m⟩) := by
  simp [skipToToken, Cursor.skipWhile, Cursor.takeWhile, Cursor.takeWhile.go, Cursor.takeBreak?]

/-- Inside brackets no block is closed. -/
theorem IsAt.closeBlocks_eq (h : s.IsAt cs m before depth) (column : Int) :
    s.closeBlocks column = s := by
  have hindents := h.indents
  rw [closeBlocks]
  split
  · rfl
  · rw [hindents, closeDeeper, ← hindents]

/-- Where nothing has to be passed over, only stale keys are dropped. -/
theorem IsAt.approach?_eq (h : s.IsAt cs m before depth)
    (hskip : ∀ inFlow fuel keyAllowed,
      skipToToken inFlow (fuel + 1) keyAllowed ⟨cs, m⟩ = (keyAllowed, ⟨cs, m⟩)) :
    s.approach? = some s.settled := by
  have hskip : skipToToken s.inFlow (s.cursor.rest.length + 1) s.keyAllowed s.cursor =
      (s.keyAllowed, s.cursor) := by
    rw [h.cursor]
    exact hskip ..
  have hdrop : s.dropStaleKeys? = some s.settled := by
    rw [dropStaleKeys?, fresh?_eq_some h.key, mapM_fresh?_eq_some h.outerKeys]
    rfl
  rw [approach?, hskip]
  show s.dropStaleKeys?.bind _ = _
  rw [hdrop, Option.bind_some, h.settled.closeBlocks_eq]

end States

/-! ### Runs -/

/-- From each state with the precondition, at most `n` tokens lead to a state with the postcondition
    or, if there is none, make the run fail. -/
def Leads (n : Nat) (pre : Scanner → Prop) (post? : Option (Scanner → Prop)) : Prop :=
  ∀ s, pre s → ∃ steps ≤ n,
    match post? with
    | none => ∀ fuel, run? (fuel + steps) s = none
    | some post => ∃ t, post t ∧ ∀ fuel, run? (fuel + steps) s = run? fuel t

section Leads

variable {n k : Nat} {pre pre' mid post : Scanner → Prop} {post? : Option (Scanner → Prop)}

/-- More steps lead as far. -/
theorem Leads.mono (h : Leads n pre post?) (hle : n ≤ k) : Leads k pre post? := by
  intro s hs
  obtain ⟨steps, hsteps, hrun⟩ := h s hs
  exact ⟨steps, hsteps.trans hle, hrun⟩

/-- A stronger condition leads to the same. -/
theorem Leads.of_imp (h : Leads n pre post?) (hpre : ∀ s, pre' s → pre s) : Leads n pre' post? :=
  fun s hs => h s (hpre s hs)

/-- What is reached may be weakened. -/
theorem Leads.imp (h : Leads n pre (some mid)) (hpost : ∀ s, mid s → post s) :
    Leads n pre (some post) := by
  intro s hs
  obtain ⟨steps, hsteps, t, ht, hrun⟩ := h s hs
  exact ⟨steps, hsteps, t, hpost t ht, hrun⟩

/-- No step leads to where the scanner is. -/
theorem Leads.refl : Leads 0 pre (some pre) :=
  fun s hs => ⟨0, Nat.le_refl 0, s, hs, fun _ => rfl⟩

/-- Steps behind steps lead to where the last ones do. -/
theorem Leads.trans (h : Leads n pre (some mid)) (h' : Leads k mid post?) :
    Leads (n + k) pre post? := by
  intro s hs
  obtain ⟨steps, hsteps, t, ht, hrun⟩ := h s hs
  obtain ⟨steps', hsteps', hrun'⟩ := h' t ht
  refine ⟨steps' + steps, by omega, ?_⟩
  cases post? with
  | none =>
    intro fuel
    rw [← Nat.add_assoc, hrun, hrun']
  | some post =>
    obtain ⟨u, hu, hrun'⟩ := hrun'
    refine ⟨u, hu, fun fuel => ?_⟩
    rw [← Nat.add_assoc, hrun, hrun']

/-- One token. -/
theorem leads_of_token {c : Char} {cs : List Char} {m : Mark} {before : List TokenKind}
    {depth : Nat} (hc : startsToken c) (hat : ∀ s, pre s → IsAt (c :: cs) m before depth s)
    (htoken : ∀ s, pre s →
      match post? with
      | none => s.settled.token? c cs = none
      | some post => ∃ t, s.settled.token? c cs = some t ∧ post t) :
    Leads 1 pre post? := by
  intro s hs
  -- A token starts here, so that the scanner passes over nothing on the way to it.
  have hrun (fuel : Nat) : run? (fuel + 1) s = (s.settled.token? c cs).bind (run? fuel) := by
    have hrest : s.settled.cursor.rest = c :: cs := by rw [(hat s hs).settled.cursor]
    rw [run?, (hat s hs).approach?_eq (skipToToken_of_startsToken hc)]
    simp only [Option.bind_eq_bind, Option.bind_some, hrest]
  have htoken := htoken s hs
  refine ⟨1, Nat.le_refl 1, ?_⟩
  cases post? with
  | none =>
    intro fuel
    rw [hrun, htoken, Option.bind_none]
  | some post =>
    obtain ⟨t, htoken, ht⟩ := htoken
    refine ⟨t, ht, fun fuel => ?_⟩
    rw [hrun, htoken, Option.bind_some]

end Leads

/-! ### Punctuation -/

section Punctuation

variable {s : Scanner} {cs : List Char} {c : Char} {m : Mark} {before : List TokenKind}
  {depth : Nat}

/-- The scanner that remembers that a key may start here, where none is required. -/
def saved (s : Scanner) : Scanner :=
  if s.keyAllowed then { s with key := some ⟨false, s.tokens.length, s.mark⟩ } else s

/-- Inside brackets a key may always be forgotten. -/
theorem IsAt.dropKey?_eq (h : s.IsAt cs m before depth) :
    s.dropKey? = some { s with key := none } := by
  have hkey : s.key.any (·.required) = false := by
    cases hkey : s.key with
    | none => rfl
    | some k => exact h.key k hkey
  rw [dropKey?, hkey]
  rfl

/-- Inside brackets a key may always be remembered. -/
theorem IsAt.saveKey?_eq (h : s.IsAt cs m before depth) : s.saveKey? = some s.saved := by
  have hindent : (s.indent = s.mark.column) = False := by
    rw [indent, h.indents]
    simp
  rw [saveKey?, saved]
  split
  · simp [h.dropKey?_eq, hindent]
  · rfl

/-- Remembering a key changes neither the place nor the tokens. -/
theorem IsAt.saved (h : s.IsAt cs m before depth) : s.saved.IsAt cs m before depth := by
  rw [Scanner.saved]
  split
  · refine { h with key := ?_ }
    rintro k ⟨⟩
    rfl
  · exact h

/-- Forgetting a key changes neither the place nor the tokens. -/
theorem IsAt.dropKey (h : s.IsAt cs m before depth) :
    IsAt cs m before depth { s with key := none } :=
  { h with key := nofun }

/-- A token of one character. -/
theorem IsAt.emitSkip (h : s.IsAt (c :: cs) m before depth) (kind : TokenKind) :
    (s.emitSkip kind 1).IsAt cs (m.next c) (before ++ [kind]) depth where
  cursor := by
    rw [Scanner.emitSkip, h.cursor]
    rfl
  kinds := by
    rw [← h.kinds]
    exact kinds_emit ..
  depth := h.depth
  indents := h.indents
  key := h.key
  outerKeys := h.outerKeys

/-- An opening bracket. -/
theorem leads_openFlow {kind : TokenKind}
    (h : c = '[' ∧ kind = .flowSequenceStart ∨ c = '\x7b' ∧ kind = .flowMappingStart) :
    Leads 1 (IsAt (c :: cs) m before depth)
      (some fun t =>
        t.IsAt cs (m.next c) (before ++ [kind]) (depth + 1) ∧ t.keyAllowed = true) := by
  refine leads_of_token (by rcases h with ⟨rfl, -⟩ | ⟨rfl, -⟩ <;> rfl) (fun _ hs => hs)
    fun s hs => ?_
  have htoken : s.settled.token? c cs = s.settled.openFlow? kind := by
    rcases h with ⟨rfl, rfl⟩ | ⟨rfl, rfl⟩ <;>
      simp [token?, hs.settled.cursor, Cursor.atIndicator_of_ne]
  refine ⟨_, by rw [htoken, openFlow?, hs.settled.saveKey?_eq]; rfl, ?_, rfl⟩
  have hemit := hs.settled.saved.emitSkip kind
  exact {
    hemit with
    depth := congrArg (· + 1) hemit.depth
    key := nofun
    outerKeys := List.forall_mem_cons.2 ⟨hemit.key, hemit.outerKeys⟩ }

/-- A closing bracket. -/
theorem leads_closeFlow {kind : TokenKind}
    (h : c = ']' ∧ kind = .flowSequenceEnd ∨ c = '\x7d' ∧ kind = .flowMappingEnd) :
    Leads 1 (IsAt (c :: cs) m before (depth + 1))
      (some (IsAt cs (m.next c) (before ++ [kind]) depth)) := by
  refine leads_of_token (by rcases h with ⟨rfl, -⟩ | ⟨rfl, -⟩ <;> rfl) (fun _ hs => hs)
    fun s hs => ?_
  have htoken : s.settled.token? c cs = s.settled.closeFlow? kind := by
    rcases h with ⟨rfl, rfl⟩ | ⟨rfl, rfl⟩ <;>
      simp [token?, hs.settled.cursor, Cursor.atIndicator_of_ne]
  -- The closing bracket drops the key that is pending inside and takes up the one from outside.
  have hemit := hs.settled.dropKey.emitSkip kind
  obtain ⟨key, outerKeys, hkeys⟩ : ∃ key outerKeys, s.settled.outerKeys = key :: outerKeys :=
    List.exists_cons_of_length_eq_add_one hs.settled.depth
  have hloose := hs.settled.outerKeys
  have hdepth := hs.settled.depth
  rw [hkeys] at hloose hdepth
  obtain ⟨hkey, houterKeys⟩ := List.forall_mem_cons.1 hloose
  have hclose : s.settled.closeFlow? kind =
      some { ({ s.settled with key := none } : Scanner).emitSkip kind 1 with
        keyAllowed := false, key, outerKeys } := by
    have hkeys : (({ s.settled with key := none } : Scanner).emitSkip kind 1).outerKeys =
        key :: outerKeys := hkeys
    rw [closeFlow?, hs.settled.dropKey?_eq]
    simp only [Option.bind_eq_bind, Option.bind_some, hkeys]
  refine ⟨_, htoken.trans hclose, ?_⟩
  exact {
    hemit with
    depth := Nat.succ.inj hdepth
    key := hkey
    outerKeys := houterKeys }

/-- A comma. -/
theorem leads_flowEntry :
    Leads 1 (IsAt (',' :: cs) m before depth)
      (some fun t =>
        t.IsAt cs (m.next ',') (before ++ [.flowEntry]) depth ∧ t.keyAllowed = true) := by
  refine leads_of_token rfl (fun _ hs => hs) fun s hs => ?_
  have htoken : s.settled.token? ',' cs = s.settled.flowEntry? := by
    simp [token?, hs.settled.cursor, Cursor.atIndicator_of_ne]
  refine ⟨_, by rw [htoken, flowEntry?, hs.settled.dropKey?_eq]; rfl, ?_, rfl⟩
  exact { hs.settled.dropKey.emitSkip .flowEntry with }

end Punctuation

/-! ### Texts and keys -/

/-- Whether a text that JSON has written fits as a key: it stands on one line, and with its quotes
    it takes up no more than 1024 bytes. -/
def fitsKey (key : String) : Bool :=
  (Json.textChars key).all (!isBreak ·) && Text.byteLength (Json.textChars key) ≤ 1024

/-- The kinds of the tokens of a key and its colon. -/
def keyKinds (key : String) (text : List Char) : List TokenKind :=
  (if fitsKey key then [.key] else []) ++ [.scalar .doubleQuoted text, .value]

section Texts

variable {s : Scanner} {cs : List Char} {m : Mark} {before : List TokenKind} {depth : Nat}

/-- A text between quotes is scanned as it is read, or not at all. -/
theorem IsAt.quotedScalar?_eq {text : String}
    (h : s.IsAt (Json.textChars text ++ cs) m before depth) :
    s.quotedScalar? .doubleQuoted = (reread text.toList).map fun read =>
      { s.saved.emit (.scalar .doubleQuoted read) m (m.after (Json.textChars text)) with
        cursor := ⟨cs, m.after (Json.textChars text)⟩
        keyAllowed := false } := by
  rw [quotedScalar?, h.saveKey?_eq]
  simp only [Option.bind_eq_bind, Option.bind_some, h.saved.cursor, h.saved.mark, decide_true,
    QuotedScalar.take?_textChars]
  cases reread text.toList <;> rfl

/-- A quote starts a quoted scalar. -/
theorem token?_textChars {text : String} (h : s.IsAt (Json.textChars text ++ cs) m before depth) :
    s.token? '"' ((text.toList.flatMap Json.escapedChar ++ ['"']) ++ cs) =
      s.quotedScalar? .doubleQuoted := by
  have hcursor : s.cursor = ⟨'"' :: ((text.toList.flatMap Json.escapedChar ++ ['"']) ++ cs), m⟩ :=
    h.cursor
  simp [token?, hcursor, Cursor.atIndicator_of_ne]

/-- Behind a scalar stands one more token. -/
theorem IsAt.emitScalar {rest : List Char} {now : Mark} (h : s.IsAt cs m before depth)
    (style : ScalarStyle) (text : List Char) :
    IsAt rest now (before ++ [.scalar style text]) depth
      { s.emit (.scalar style text) m now with
        cursor := ⟨rest, now⟩
        keyAllowed := false } where
  cursor := rfl
  kinds := by
    rw [← h.kinds]
    exact kinds_emit ..
  depth := h.depth
  indents := h.indents
  key := h.key
  outerKeys := h.outerKeys

/-- A text between quotes. -/
theorem leads_textChars {text : String} :
    Leads 1 (IsAt (Json.textChars text ++ cs) m before depth)
      ((reread text.toList).map fun read =>
        IsAt cs (m.after (Json.textChars text)) (before ++ [.scalar .doubleQuoted read])
          depth) := by
  refine leads_of_token (c := '"') rfl (fun _ hs => hs) fun s hs => ?_
  have htoken := (token?_textChars hs.settled).trans hs.settled.quotedScalar?_eq
  cases hread : reread text.toList with
  | none =>
    rw [hread] at htoken
    exact htoken
  | some read =>
    rw [hread] at htoken
    exact ⟨_, htoken, hs.settled.saved.emitScalar ..⟩

/-- A key put in front of the latest token. -/
theorem IsAt.insertKey {kind : TokenKind} (h : s.IsAt cs m (before ++ [kind]) depth) (mark : Mark) :
    IsAt cs m (before ++ [.key, kind]) depth
      { s.insertAt (s.tokens.length - 1) ⟨.key, mark, mark⟩ with
        key := none
        keyAllowed := false } where
  cursor := h.cursor
  kinds := by
    have hkinds := h.kinds
    show ((s.insertAt _ _).tokens.reverse.map (·.kind)) = _
    rw [Scanner.kinds] at hkinds
    rw [insertAt]
    -- Tokens are kept latest first: the key goes in behind the head of the list.
    cases htokens : s.tokens with
    | nil =>
      rw [htokens] at hkinds
      simp at hkinds
    | cons token tokens =>
      rw [htokens] at hkinds
      simp only [List.reverse_cons, List.map_append, List.map_cons, List.map_nil] at hkinds
      obtain ⟨hbefore, hkind⟩ := List.append_inj' hkinds rfl
      simp [hbefore, hkind]
  depth := h.depth
  indents := h.indents
  key := nofun
  outerKeys := h.outerKeys

/-- A colon.  The token in front of it is a key, unless the place where it started has become
    stale. -/
theorem leads_value {kind : TokenKind} {now : Mark} :
    Leads 1
      (fun t => t.IsAt (':' :: cs) now (before ++ [kind]) (depth + 1) ∧
        t.key = some ⟨false, t.tokens.length - 1, m⟩)
      (some (IsAt cs (now.next ':')
        (before ++ (if PendingKey.isStale now ⟨false, 0, m⟩ then [] else [.key]) ++ [kind, .value])
        (depth + 1))) := by
  refine leads_of_token rfl (fun _ hs => hs.1) fun s ⟨hs, hkey⟩ => ?_
  have hat := hs.settled
  have htoken : s.settled.token? ':' cs = s.settled.valueToken? := by
    simp [token?, hat.cursor, hat.inFlow, Cursor.atIndicator_of_ne]
  -- The key is the latest token, unless it began too far back.
  have hpending : s.settled.key =
      if PendingKey.isStale now ⟨false, 0, m⟩ then none
      else some ⟨false, s.settled.tokens.length - 1, m⟩ := by
    rw [Scanner.settled, hkey, hs.mark, Option.filter_some]
    show (if !PendingKey.isStale now ⟨false, 0, m⟩ then _ else _) = _
    cases PendingKey.isStale now ⟨false, 0, m⟩ <;> rfl
  rw [htoken, valueToken?, hpending]
  -- A stale key leaves a colon with no key; a fresh one gets its mark put in front of it.
  split_ifs with hstale
  · refine ⟨_, by rw [startBlock?, if_pos hat.inFlow]; rfl, ?_⟩
    have hemit := hat.emitSkip .value
    rw [List.append_nil, List.append_cons]
    exact { hemit with }
  · have hinsert := hat.insertKey m
    have hopen (column position : Nat) (kind : TokenKind) :
        (s.settled.insertAt (s.settled.tokens.length - 1) ⟨.key, m, m⟩).openBlock column position
          kind m = s.settled.insertAt (s.settled.tokens.length - 1) ⟨.key, m, m⟩ :=
      if_pos (.inl hat.inFlow)
    refine ⟨_, by simp only [hopen]; rfl, ?_⟩
    have hemit := hinsert.emitSkip .value
    rw [List.append_assoc] at hemit ⊢
    exact { hemit with }

/-- Behind a key that does not fit, the place where it started is stale. -/
theorem isStale_after (key : String) (m : Mark) (position : Nat) :
    PendingKey.isStale (m.after (Json.textChars key)) ⟨false, position, m⟩ = !fitsKey key := by
  have hle := Mark.line_le_line_after m (Json.textChars key)
  have hline := Mark.line_after_eq_iff m (Json.textChars key)
  have hoffset := Mark.offset_after m (Json.textChars key)
  rw [Bool.eq_iff_iff]
  simp only [PendingKey.isStale, fitsKey, Bool.or_eq_true, decide_eq_true_eq, Bool.not_eq_true',
    Bool.and_eq_false_iff, decide_eq_false_iff_not, hoffset, Nat.add_lt_add_iff_left, Nat.not_le]
  have hbreaks : (Json.textChars key).all (!isBreak ·) = true ↔
      (m.after (Json.textChars key)).line = m.line := by
    rw [hline, List.all_eq_true]
    simp
  rw [← Bool.not_eq_true, hbreaks]
  omega

/-- A key and its colon.  If it does not fit, nothing in front of it says that it is one. -/
theorem leads_key {key : String} :
    Leads 2 (fun s => s.IsAt (Json.textChars key ++ ':' :: cs) m before (depth + 1) ∧ s.keyAllowed)
      ((reread key.toList).map fun read =>
        IsAt cs ((m.after (Json.textChars key)).next ':') (before ++ keyKinds key read)
          (depth + 1)) := by
  -- First the scalar, which is remembered as a possible key, and then the colon.
  have hscalar : Leads 1
      (fun s => s.IsAt (Json.textChars key ++ ':' :: cs) m before (depth + 1) ∧ s.keyAllowed)
      ((reread key.toList).map fun read t =>
        t.IsAt (':' :: cs) (m.after (Json.textChars key))
          (before ++ [.scalar .doubleQuoted read]) (depth + 1) ∧
        t.key = some ⟨false, t.tokens.length - 1, m⟩) := by
    refine leads_of_token (c := '"') rfl (fun _ hs => hs.1) fun s ⟨hs, hallowed⟩ => ?_
    have htoken := (token?_textChars hs.settled).trans hs.settled.quotedScalar?_eq
    cases hread : reread key.toList with
    | none =>
      rw [hread] at htoken
      exact htoken
    | some read =>
      rw [hread] at htoken
      refine ⟨_, htoken, hs.settled.saved.emitScalar .., ?_⟩
      have hallowed : s.settled.keyAllowed = true := hallowed
      show s.settled.saved.key = some ⟨false, s.settled.saved.tokens.length + 1 - 1, m⟩
      rw [Scanner.saved, if_pos hallowed, hs.settled.mark]
      rfl
  cases hread : reread key.toList with
  | none =>
    rw [hread] at hscalar
    exact hscalar.mono (by omega)
  | some read =>
    rw [hread] at hscalar
    have hvalue := hscalar.trans leads_value
    rw [isStale_after] at hvalue
    cases hfits : fitsKey key <;> rw [hfits] at hvalue <;> simpa [keyKinds, hfits] using hvalue

end Texts

/-! ### Words -/

/-- Letters and digits, perhaps behind a minus. -/
def IsWord : List Char → Prop
  | [] => False
  | c :: cs => (c.isAlphanum ∨ c = '-' ∧ cs ≠ []) ∧ ∀ d ∈ cs, d.isAlphanum

section Words

variable {s : Scanner} {cs word : List Char} {c : Char} {m : Mark} {before : List TokenKind}
  {depth : Nat}

/-- A letter or digit is no other character. -/
theorem ne_of_isAlphanum (h : c.isAlphanum) (d : Char) (hd : d.isAlphanum = false) : c ≠ d := by
  rintro rfl
  rw [hd] at h
  cases h

/-- A letter, digit or dash is no other character. -/
theorem ne_of_isAlphanum_or (h : c.isAlphanum ∨ c = '-') (d : Char) (hd : d.isAlphanum = false)
    (hdash : d ≠ '-') : c ≠ d := by
  rcases h with h | rfl
  · exact ne_of_isAlphanum h d hd
  · exact hdash.symm

/-- A word is taken up to the punctuation behind it. -/
theorem takeWord?_append (hword : ∀ c ∈ word, c.isAlphanum ∨ c = '-')
    (hcs : cs.head?.any isFlowIndicator) (m : Mark) :
    PlainScalar.takeWord? true (word ++ cs) m = some (word, ⟨cs, m.after word⟩) := by
  induction word generalizing m with
  | nil =>
    cases cs with
    | nil => cases hcs
    | cons d cs =>
      have hd : isFlowIndicator d = true := hcs
      have hcolon : d ≠ ':' := by
        rintro rfl
        cases hd
      simp [PlainScalar.takeWord?, PlainScalar.badColon, PlainScalar.endsHere, hd, hcolon,
        Mark.after]
  | cons c word ih =>
    obtain ⟨hc, hword⟩ := List.forall_mem_cons.1 hword
    have hne := ne_of_isAlphanum_or hc
    have hends : PlainScalar.endsHere true (c :: (word ++ cs)) = false := by
      simp [PlainScalar.endsHere, isBlank, isBreak, isFlowIndicator, hne]
    have hbreak : isBreak c = false := by simp [isBreak, hne]
    -- Letters, digits and dashes end no word and cannot be the colon that is refused between
    -- brackets.
    have hcolon : PlainScalar.badColon true (c :: (word ++ cs)) = false := by
      unfold PlainScalar.badColon
      split
      · next heq => exact absurd (List.cons.inj heq).1 (hne ':' rfl (by decide))
      · rfl
    simp [PlainScalar.takeWord?, hcolon, hends, ih hword, Mark.after_cons_of_not_isBreak m hbreak]

/-- A word is made of letters, digits and dashes. -/
theorem IsWord.forall_mem (h : IsWord word) : ∀ c ∈ word, c.isAlphanum ∨ c = '-' := by
  cases word with
  | nil => cases h
  | cons c word =>
    obtain ⟨hc, hword⟩ := h
    exact List.forall_mem_cons.2 ⟨hc.imp_right (·.1), fun d hd => .inl (hword d hd)⟩

/-- A word is no marker between documents. -/
theorem IsWord.not_atIndicator (h : IsWord word) {d : Char} (hd : d = '-' ∨ d = '.')
    (cs : List Char) (m : Mark) : Cursor.atIndicator d ⟨word ++ cs, m⟩ = false := by
  cases word with
  | nil => cases h
  | cons c word =>
    obtain ⟨hc | ⟨rfl, hne⟩, hword⟩ := h
    · refine Cursor.atIndicator_of_ne (ne_of_isAlphanum hc d ?_).symm _ _
      rcases hd with rfl | rfl <;> rfl
    · obtain ⟨c, word, rfl⟩ := List.exists_cons_of_ne_nil hne
      have hdash : d.isAlphanum = false := by rcases hd with rfl | rfl <;> rfl
      have hc := ne_of_isAlphanum (hword c List.mem_cons_self) d hdash
      simp [Cursor.atIndicator, List.isPrefixOf?, hc.symm]

/-- Punctuation is no gap. -/
theorem not_atGap_of_isFlowIndicator (h : cs.head?.any isFlowIndicator) : atGap cs = false := by
  cases cs with
  | nil => cases h
  | cons c cs =>
    simp only [List.head?_cons, Option.any_some, isFlowIndicator, Bool.or_eq_true,
      decide_eq_true_eq] at h
    rcases h with (((rfl | rfl) | rfl) | rfl) | rfl <;> rfl

/-- A word is taken as a plain scalar, up to the punctuation behind it. -/
theorem IsWord.take?_append (h : IsWord word) (hcs : cs.head?.any isFlowIndicator) (indent : Int)
    (m : Mark) :
    PlainScalar.take? true indent ⟨word ++ cs, m⟩ =
      some ⟨word, m.after word, ⟨cs, m.after word⟩, false⟩ := by
  have hborder : Cursor.atDocumentBorder ⟨word ++ cs, m⟩ = false := by
    rw [Cursor.atDocumentBorder, h.not_atIndicator (.inl rfl), h.not_atIndicator (.inr rfl)]
    rfl
  have htake := takeWord?_append h.forall_mem hcs m
  have hgap := not_atGap_of_isFlowIndicator hcs
  cases word with
  | nil => cases h
  | cons c word =>
    have hhash : c ≠ '#' :=
      ne_of_isAlphanum_or (h.forall_mem c List.mem_cons_self) '#' rfl (by decide)
    rw [List.cons_append] at hborder htake ⊢
    simp [PlainScalar.take?, PlainScalar.takeWords?, hborder, htake, hhash, hgap, Gap.folded]

/-- A word in front of punctuation. -/
theorem leads_word (h : IsWord word) (hcs : cs.head?.any isFlowIndicator) :
    Leads 1 (IsAt (word ++ cs) m before (depth + 1))
      (some (IsAt cs (m.after word) (before ++ [.scalar .plain word]) (depth + 1))) := by
  have hdash (m : Mark) := h.not_atIndicator (.inl rfl) cs m
  have hpoint (m : Mark) := h.not_atIndicator (.inr rfl) cs m
  have htake := h.take?_append hcs
  cases word with
  | nil => cases h
  | cons c word =>
    have hne := ne_of_isAlphanum_or (h.forall_mem c List.mem_cons_self)
    have hstarts : startsToken c = true := by simp [startsToken, isBlank, isBreak, hne]
    refine leads_of_token hstarts (fun _ hs => hs) fun s hs => ?_
    have hat := hs.settled
    have hplain : startsPlain c = true ∨ c = '-' := by
      rcases h.1 with hc | ⟨hc, -⟩
      · exact .inl (by simp [startsPlain, isBlank, isBreak, ne_of_isAlphanum hc])
      · exact .inr hc
    -- A dash in front of a letter is no entry of a list.
    have hentry : ¬(c = '-' ∧ atGap (word ++ cs) = true) := by
      rintro ⟨rfl, hgap⟩
      obtain ⟨d, word, rfl⟩ := List.exists_cons_of_ne_nil (h.1.resolve_left (by decide)).2
      have hd := ne_of_isAlphanum (h.2 d List.mem_cons_self)
      simp [atGap, isBlank, isBreak, hd] at hgap
    have htoken : s.settled.token? c (word ++ cs) = s.settled.plainScalar? := by
      rw [List.cons_append] at hdash hpoint
      simp [token?, hat.cursor, hdash, hpoint, hne, hentry, hplain]
    have hplainScalar : s.settled.plainScalar? = some
        { s.settled.saved.emit (.scalar .plain (c :: word)) m (m.after (c :: word)) with
          cursor := ⟨cs, m.after (c :: word)⟩
          keyAllowed := false } := by
      rw [plainScalar?, hat.saveKey?_eq]
      simp only [Option.bind_eq_bind, Option.bind_some, hat.saved.cursor, hat.saved.inFlow,
        hat.saved.mark, htake]
    exact ⟨_, htoken.trans hplainScalar, hat.saved.emitScalar .plain _⟩

end Words

/-! ### The end -/

/-- At the end of the text, all tokens are there. -/
theorem run?_nil {s : Scanner} {m : Mark} {before : List TokenKind} {depth : Nat}
    (h : s.IsAt [] m before depth) (fuel : Nat) :
    (run? (fuel + 1) s).map (List.map Token.kind) = some (before ++ [.streamEnd]) := by
  have hrest : s.settled.cursor.rest = [] := by rw [h.settled.cursor]
  have hend (now : Mark) : IsAt [] now before depth { s.settled with cursor := ⟨[], now⟩ } :=
    { h.settled with cursor := rfl }
  rw [run?, h.approach?_eq skipToToken_nil]
  simp only [Option.bind_eq_bind, Option.bind_some, hrest, finish?, (hend _).closeBlocks_eq,
    (hend _).dropKey?_eq, Option.map_some]
  rw [← h.settled.kinds]
  exact congrArg some (kinds_emit ..)

end Scanner

end MachineTuning.Yaml
