import MachineTuning.Proofs.Yaml.JsonTokens
import MachineTuning.Proofs.Yaml.Block.Line
import MachineTuning.Proofs.Yaml.Written.Value
import MachineTuning.Yaml.Printer

namespace MachineTuning.Yaml

/-!
# YAML documents as tokens

What YAML writes for a value falls into the tokens of its parts: a mapping opens a block of its own,
and so does a sequence, unless it stands directly below its key.  `blockKinds` says which tokens a
value becomes and `ofChars?_printMembers` that the scanner finds them, whatever the texts are.
-/

/-! ### The tokens of a value -/

open Scanner (textKind)

mutual
/-- The kinds of the tokens of a value behind its key, or behind a dash or a mark (`sameLine`). -/
def blockKinds (sameLine : Bool) : Json → List TokenKind
  | .null => [.scalar .plain "null".toList]
  | .boolean b => [.scalar .plain (if b then "true" else "false").toList]
  | .number (.integer n) => [.scalar .plain (Json.integerChars n)]
  | .number (.real x) => [.scalar .plain x.positionalText.toList]
  | .text s => [textKind s]
  | .array [] => [.flowSequenceStart, .flowSequenceEnd]
  | .object [] => [.flowMappingStart, .flowMappingEnd]
  | .array (item :: items) =>
    let entries := .blockEntry :: blockKinds true item ++ entryKinds items
    if sameLine then .blockSequenceStart :: entries ++ [.blockEnd] else entries
  | .object ((key, value) :: members) =>
    .blockMappingStart :: (.key :: textKind key :: .value ::
      blockKinds (!Style.admitsSimpleKey key) value ++ pairKinds members) ++ [.blockEnd]

/-- The kinds of the tokens of items, each behind a dash. -/
def entryKinds : List Json → List TokenKind
  | [] => []
  | item :: items => .blockEntry :: blockKinds true item ++ entryKinds items

/-- The kinds of the tokens of members. -/
def pairKinds : List (String × Json) → List TokenKind
  | [] => []
  | (key, value) :: members =>
    .key :: textKind key :: .value ::
      blockKinds (!Style.admitsSimpleKey key) value ++ pairKinds members
end

/-! ### Scanning parts of a document -/

open Scanner

/-- A value is scanned up to the next line, which lies in the same block or further out. -/
def ScansBlock (v : Json) : Prop :=
  ∀ ⦃sameLine : Bool⦄ ⦃k n column : Nat⦄ ⦃before : List TokenKind⦄ ⦃indents : List Nat⦄
    ⦃tail : List Char⦄, n ≤ k → k < column → (sameLine = true → column = k + 1) → Begins tail →
    Leads (printValue sameLine k v).length
      (IsIn (printValue sameLine k v ++ (indentation n ++ tail)) column before (k :: indents)
        sameLine)
      (some (Awaits tail n (before ++ blockKinds sameLine v) (k :: indents) true))

section Scans

variable {i n : Nat} {before : List TokenKind} {indents : List Nat} {tail : List Char}

/-- Where a block is open, it is not opened again. -/
theorem openings_self (kind : TokenKind) (i : Nat) (indents : List Nat) :
    openings kind i (i :: indents) = [] ∧ openedAt i (i :: indents) = i :: indents := by
  simp [openings, openedAt]

/-- Behind an opening the innermost block stands at the column of what was opened. -/
theorem exists_openedAt_eq (h : IsInside i indents) : ∃ outer, openedAt i indents = i :: outer := by
  rw [openedAt]
  split_ifs with hopen
  · cases indents with
    | nil => cases hopen
    | cons j indents =>
      have hle : j ≤ i := h j rfl
      have hge : i ≤ j := by simpa using hopen
      exact ⟨indents, by rw [Nat.le_antisymm hge hle]⟩
  · exact ⟨indents, rfl⟩

/-- What stands behind a colon or a dash is a gap. -/
theorem atGap_printValue (sameLine : Bool) (k : Nat) (v : Json) (rest : List Char) :
    atGap (printValue sameLine k v ++ rest) := by
  unfold printValue
  split
  · rfl
  · rfl
  · cases sameLine <;> rfl
  · cases sameLine <;> rfl
  · rfl

/-! ### Scalars -/

/-- A text behind its key or dash. -/
theorem scansBlock_text (s : String) : ScansBlock (.text s) := by
  intro sameLine k n column before indents tail hn hcolumn _ htail
  have htext : Leads 1
      (Awaits (textLine (k + 2) s ++ (indentation n ++ tail)) (column + 1) before (k :: indents)
        sameLine)
      (some (Awaits tail n (before ++ [textKind s]) (k :: indents) true)) :=
    leads_textLine hn htail (by omega) s
  have hlength : 1 ≤ (printValue sameLine k (.text s)).length := Nat.succ_le_succ (Nat.zero_le _)
  exact (htext.behindSpace (begins_textLine (k + 2) s _)).mono hlength

/-- A text without colons and hashes holds no punctuation. -/
theorem holdsPunctuation_eq_false {cs : List Char} (h : ∀ d ∈ cs, d ≠ ':' ∧ d ≠ '#') :
    Style.holdsPunctuation cs = false := by
  induction cs with
  | nil => rfl
  | cons c cs ih =>
    obtain ⟨-, hcs⟩ := List.forall_mem_cons.1 h
    cases cs with
    | nil => rfl
    | cons d cs =>
      have hd := hcs d List.mem_cons_self
      rw [Style.holdsPunctuation, ih hcs]
      simp [hd]

/-- A word holds letters, digits and dashes only. -/
theorem ne_of_mem_isWord {word : List Char} (h : IsWord word) {c : Char} (hc : c ∈ word) {d : Char}
    (hd : d.isAlphanum = false) (hdash : d ≠ '-') : c ≠ d :=
  ne_of_isAlphanum_or (h.forall_mem c hc) d hd hdash

/-- No blank and no line break stands in a word. -/
theorem line_of_mem_isWord {word : List Char} (h : IsWord word) {c : Char} (hc : c ∈ word) :
    isBreak c = false ∧ c ≠ '\t' ∧ c ≠ ' ' := by
  refine ⟨?_, ne_of_mem_isWord h hc rfl (by decide), ne_of_mem_isWord h hc rfl (by decide)⟩
  simp [isBreak, ne_of_mem_isWord h hc]

/-- A word does not look like the border of a document. -/
theorem startsLikeBorder_of_isWord {c : Char} {cs : List Char} (h : IsWord (c :: cs)) :
    Style.startsLikeBorder (c :: cs) = false := by
  have hpoint : '.' ≠ c := (ne_of_mem_isWord h List.mem_cons_self rfl (by decide)).symm
  cases cs with
  | nil => simp [Style.startsLikeBorder, List.isPrefixOf]
  | cons d cs =>
    have hdash : '-' ≠ d := (ne_of_isAlphanum (h.2 d List.mem_cons_self) '-' rfl).symm
    simp [Style.startsLikeBorder, List.isPrefixOf, hdash, hpoint]

/-- Letters and digits are no punctuation. -/
theorem startsLikePunctuation_of_isAlphanum {c : Char} (h : c.isAlphanum) (cs : List Char) :
    Style.startsLikePunctuation (c :: cs) = false := by
  have hlist : ∀ d ∈ "#,[]\x7b\x7d&*!|>'\"%@\x60".toList, d.isAlphanum = false := by decide
  have hnot : "#,[]\x7b\x7d&*!|>'\"%@\x60".toList.contains c = false := by
    rw [Bool.eq_false_iff]
    intro hmem
    exact ne_of_isAlphanum h c (hlist c (List.contains_iff_mem.1 hmem)) rfl
  rw [Style.startsLikePunctuation, hnot]
  simp [ne_of_isAlphanum h]

/-- A dash in front of a word is a sign. -/
theorem startsLikePunctuation_of_isWord {c : Char} {cs : List Char} (h : IsWord (c :: cs)) :
    Style.startsLikePunctuation (c :: cs) = false := by
  rcases h.1 with hc | ⟨rfl, hne⟩
  · exact startsLikePunctuation_of_isAlphanum hc cs
  · obtain ⟨d, cs, rfl⟩ := List.exists_cons_of_ne_nil hne
    obtain ⟨hbreak, htab, hspace⟩ := line_of_mem_isWord (c := d) h (by simp)
    simp [Style.startsLikePunctuation, atGap, isBlank, hspace, htab, hbreak]

/-- Words are not taken for punctuation. -/
theorem isPlain_of_isWord {word : List Char} (h : IsWord word) :
    IsPlain word ∧ word.head? ≠ some '\ufeff' := by
  -- Colons and number signs are not among the characters of a word.
  have hinner : Style.holdsPunctuation word = false := by
    apply holdsPunctuation_eq_false
    intro c hc
    exact ⟨ne_of_mem_isWord h hc rfl (by decide), ne_of_mem_isWord h hc rfl (by decide)⟩
  have hline : ∀ c ∈ word, isBreak c = false ∧ c ≠ '\t' := fun c hc =>
    have hc := line_of_mem_isWord h hc
    ⟨hc.1, hc.2.1⟩
  have hspace : ∀ c ∈ word, c ≠ ' ' := fun c hc => (line_of_mem_isWord h hc).2.2
  cases word with
  | nil => cases h
  | cons c cs =>
    constructor
    · exact
        { ne_nil := List.cons_ne_nil c cs
          border := startsLikeBorder_of_isWord h
          start := startsLikePunctuation_of_isWord h
          inner := hinner
          line := hline
          head := fun heq => hspace c List.mem_cons_self (Option.some.inj heq)
          last := fun heq => hspace ' ' (List.mem_of_getLast? heq) rfl }
    · intro heq
      exact ne_of_mem_isWord h List.mem_cons_self rfl (by decide) (Option.some.inj heq)

/-- A word behind its key or dash. -/
theorem leads_wordLine {word : List Char} (hword : IsWord word) {sameLine : Bool} {k column : Nat}
    (hn : n ≤ k) (hcolumn : k < column) (htail : Begins tail) :
    Leads 1
      (IsIn (' ' :: (word ++ ['\n']) ++ (indentation n ++ tail)) column before (k :: indents)
        sameLine)
      (some (Awaits tail n (before ++ [.scalar .plain word]) (k :: indents) true)) := by
  obtain ⟨hplain, hmark⟩ := isPlain_of_isWord hword
  rw [List.cons_append, List.append_assoc]
  exact (leads_plainLine hplain hmark hn htail (by omega)).behindSpace
    (begins_of_isPlain hplain hmark _)

/-- Null is scanned as it is printed. -/
theorem scansBlock_null : ScansBlock .null := by
  intro sameLine k n column before indents tail hn hcolumn _ htail
  have hword : IsWord "null".toList := ⟨.inl rfl, by decide⟩
  exact (leads_wordLine hword hn hcolumn htail).mono (Nat.succ_le_succ (Nat.zero_le _))

/-- A truth value is scanned as it is printed. -/
theorem scansBlock_boolean (b : Bool) : ScansBlock (.boolean b) := by
  intro sameLine k n column before indents tail hn hcolumn _ htail
  have hword : IsWord (if b then "true" else "false").toList := by
    cases b <;> exact ⟨.inl rfl, by decide⟩
  exact (leads_wordLine hword hn hcolumn htail).mono (Nat.succ_le_succ (Nat.zero_le _))

/-- An integer is scanned as it is printed. -/
theorem scansBlock_integer (n : Int) : ScansBlock (.ofInt n) := by
  intro sameLine k n column before indents tail hn hcolumn _ htail
  exact (leads_wordLine (isWord_integerChars _) hn hcolumn htail).mono
    (Nat.succ_le_succ (Nat.zero_le _))

/-! ### Sequences -/

/-- A block is inside itself. -/
theorem isInside_self (i : Nat) (indents : List Nat) : IsInside i (i :: indents) :=
  isInside_of_le (Nat.le_refl i) indents

/-- An item behind its dash, which opens a sequence unless one is open there. -/
theorem leads_entry {item : Json} (hitem : ScansBlock item) (hn : n ≤ i) (htail : Begins tail)
    (hinside : IsInside i indents) :
    Leads (1 + (printValue true i item).length)
      (Awaits ('-' :: (printValue true i item ++ (indentation n ++ tail))) i before indents true)
      (some (Awaits tail n
        (before ++ openings .blockSequenceStart i indents ++ .blockEntry :: blockKinds true item)
        (openedAt i indents) true)) := by
  have hgap := atGap_printValue true i item (indentation n ++ tail)
  have hdash : Leads 1
      (Awaits ('-' :: (printValue true i item ++ (indentation n ++ tail))) i before indents true)
      _ :=
    leads_indicator (.inl ⟨rfl, rfl, rfl⟩) hgap hinside
  obtain ⟨outer, hopened⟩ := exists_openedAt_eq hinside
  rw [hopened] at hdash ⊢
  have hboth := hdash.trans (hitem hn (Nat.lt_succ_self i) (fun _ => rfl) htail)
  simpa only [List.append_assoc, List.singleton_append] using hboth

/-- The items behind the first are scanned up to the next line. -/
theorem exists_leads_printItems {items : List Json} (h : ∀ v ∈ items, ScansBlock v) (hn : n ≤ i)
    (htail : Begins tail) (outer : List Nat) :
    ∃ n' tail', printItems i items ++ (indentation n ++ tail) = indentation n' ++ tail' ∧ n' ≤ i ∧
      Begins tail' ∧ ∀ before, Leads (printItems i items).length
        (Awaits tail' n' before (i :: outer) true)
        (some (Awaits tail n (before ++ entryKinds items) (i :: outer) true)) := by
  induction items with
  | nil =>
    refine ⟨n, tail, rfl, hn, htail, fun before => ?_⟩
    rw [entryKinds, List.append_nil]
    exact Leads.refl
  | cons item items ih =>
    obtain ⟨hitem, hitems⟩ := List.forall_mem_cons.1 h
    obtain ⟨n', tail', heq, hn', htail', hrest⟩ := ih hitems
    refine ⟨i, '-' :: (printValue true i item ++ (indentation n' ++ tail')), ?_, Nat.le_refl i, rfl,
      fun before => ?_⟩
    · simp only [printItems, List.append_assoc, List.cons_append, heq]
    · obtain ⟨hopenings, hopened⟩ := openings_self .blockSequenceStart i outer
      have hentry : Leads _ (Awaits _ i before (i :: outer) true) _ :=
        leads_entry hitem hn' htail' (isInside_self i outer)
      rw [hopenings, hopened, List.append_nil] at hentry
      have hboth := hentry.trans (hrest _)
      have hlength : 1 + (printValue true i item).length + (printItems i items).length ≤
          (printItems i (item :: items)).length := by
        simp only [printItems, List.length_append, List.length_cons]
        omega
      rw [List.append_assoc] at hboth
      exact hboth.mono hlength

/-! ### Mappings -/

/-- What is written for a key in front of a value starts a line. -/
theorem begins_keyLine (k : Nat) (key : String) (v : Json) (rest : List Char) :
    Begins (keyLine k key ++ (printValue (!Style.admitsSimpleKey key) k v ++ rest)) := by
  rw [keyLine]
  split_ifs with hsimple
  · have hgap := atGap_printValue (!Style.admitsSimpleKey key) k v rest
    obtain ⟨c, cs, heq, hc, -⟩ := isScalar_keyChars hsimple hgap 0
    rw [List.append_assoc, List.singleton_append, heq]
    exact hc
  · rfl

/-- A short key and what stands behind it, whatever the scanner has reached there. -/
theorem leads_simpleMember {key : String} {cs : List Char} {kinds : List TokenKind} {m : Nat}
    (reached : List TokenKind → List Nat → Scanner → Prop) (hsimple : Style.admitsSimpleKey key)
    (hgap : atGap cs) (hinside : IsInside i indents)
    (hvalue : ∀ column outer before, i < column →
      Leads m (IsIn cs column before (i :: outer) false)
        (some (reached (before ++ kinds) (i :: outer)))) :
    Leads (2 + m) (Awaits (keyChars key ++ ':' :: cs) i before indents true)
      (some (reached
        (before ++ openings .blockMappingStart i indents ++ .key :: textKind key :: .value :: kinds)
        (openedAt i indents))) := by
  have hkey : Leads 2 (Awaits _ i before indents true) _ := leads_simpleKey hsimple hgap hinside
  obtain ⟨outer, hopened⟩ := exists_openedAt_eq hinside
  rw [hopened] at hkey ⊢
  have hlast (before : List TokenKind) : Leads m
      (fun t => ∃ column, i < column ∧ t.IsIn cs column before (i :: outer) false)
      (some (reached (before ++ kinds) (i :: outer))) :=
    fun s ⟨column, hlt, hs⟩ => hvalue column outer before hlt s hs
  have hboth := hkey.trans (hlast _)
  simpa only [List.append_assoc, List.cons_append, List.nil_append] using hboth

/-- A short key and its value on one line, or its value below it. -/
theorem leads_shortMember {key : String} {value : Json} (hsimple : Style.admitsSimpleKey key)
    (hvalue : ScansBlock value) (hn : n ≤ i) (htail : Begins tail) (hinside : IsInside i indents) :
    Leads (2 + (printValue false i value).length)
      (Awaits (keyChars key ++ ':' :: (printValue false i value ++ (indentation n ++ tail))) i
        before indents true)
      (some (Awaits tail n
        (before ++ openings .blockMappingStart i indents ++ .key :: textKind key :: .value ::
          blockKinds false value)
        (openedAt i indents) true)) :=
  leads_simpleMember (fun before indents => Awaits tail n before indents true) hsimple
    (atGap_printValue false i value (indentation n ++ tail)) hinside
    fun _ _ _ hlt => hvalue hn hlt (fun h => absurd h (by decide)) htail

/-- A long key behind its mark, and its value behind another one. -/
theorem leads_longMember {value : Json} (key : String) (hvalue : ScansBlock value) (hn : n ≤ i)
    (htail : Begins tail) (hinside : IsInside i indents) :
    Leads (1 + 1 + 1 + (printValue true i value).length)
      (Awaits ('?' :: ' ' :: (textLine (i + 2) key ++ (indentation i ++
        ':' :: (printValue true i value ++ (indentation n ++ tail))))) i before indents true)
      (some (Awaits tail n
        (before ++ openings .blockMappingStart i indents ++ .key :: textKind key :: .value ::
          blockKinds true value)
        (openedAt i indents) true)) := by
  generalize hbehind : printValue true i value ++ (indentation n ++ tail) = behind
  have hgap : atGap behind := hbehind ▸ atGap_printValue true i value (indentation n ++ tail)
  obtain ⟨outer, hopened⟩ := exists_openedAt_eq hinside
  obtain ⟨hopenings, hself⟩ := openings_self .blockMappingStart i outer
  have hmark : Leads 1
      (Awaits ('?' :: ' ' :: (textLine (i + 2) key ++ (indentation i ++ ':' :: behind))) i before
        indents true) _ :=
    leads_indicator (.inr (.inl ⟨rfl, rfl, rfl⟩)) rfl hinside
  rw [hopened] at hmark ⊢
  have hkey (before : List TokenKind) : Leads 1
      (Awaits (textLine (i + 2) key ++ (indentation i ++ ':' :: behind)) (i + 1 + 1) before
        (i :: outer) true)
      (some (Awaits (':' :: behind) i (before ++ [textKind key]) (i :: outer) true)) :=
    have hbegins : Begins (':' :: behind) := rfl
    leads_textLine (Nat.le_refl i) hbegins (by omega) key
  have hcolon (before : List TokenKind) :
      Leads 1 (Awaits (':' :: behind) i before (i :: outer) true) _ :=
    leads_indicator (.inr (.inr ⟨rfl, rfl, rfl⟩)) hgap (isInside_self i outer)
  rw [hopenings, hself] at hcolon
  have hlast (before : List TokenKind) : Leads (printValue true i value).length
      (IsIn behind (i + 1) before (i :: outer) true)
      (some (Awaits tail n (before ++ blockKinds true value) (i :: outer) true)) :=
    hbehind ▸ hvalue hn (Nat.lt_succ_self i) (fun _ => rfl) htail
  have hall := ((hmark.trans ((hkey _).behindSpace (begins_textLine (i + 2) key _))).trans
    (hcolon _)).trans (hlast _)
  simpa only [List.append_assoc, List.cons_append, List.nil_append] using hall

/-- A member of a mapping. -/
theorem leads_member {value : Json} (key : String) (hvalue : ScansBlock value) (hn : n ≤ i)
    (htail : Begins tail) (hinside : IsInside i indents) :
    Leads ((keyLine i key).length + (printValue (!Style.admitsSimpleKey key) i value).length)
      (Awaits (keyLine i key ++ (printValue (!Style.admitsSimpleKey key) i value ++
        (indentation n ++ tail))) i before indents true)
      (some (Awaits tail n
        (before ++ openings .blockMappingStart i indents ++ .key :: textKind key :: .value ::
          blockKinds (!Style.admitsSimpleKey key) value)
        (openedAt i indents) true)) := by
  by_cases hsimple : Style.admitsSimpleKey key
  · have hlength : 2 ≤ (keyLine i key).length := by
      have hpos := List.length_pos_iff.2 (keyChars_ne_nil key)
      rw [keyLine, if_pos hsimple, List.length_append, List.length_singleton]
      omega
    have hmember : Leads _ (Awaits _ i before indents true) _ :=
      leads_shortMember hsimple hvalue hn htail hinside
    refine Leads.mono ?_ (Nat.add_le_add_right hlength _)
    rw [keyLine, if_pos hsimple, hsimple, List.append_assoc]
    exact hmember
  · have hkey : keyLine i key =
        '?' :: ' ' :: (textLine (i + 2) key ++ (indentation i ++ [':'])) := by
      rw [keyLine, if_neg hsimple, List.cons_append, List.cons_append, List.append_assoc]
      rfl
    have hlength : 1 + 1 + 1 ≤ (keyLine i key).length := by
      rw [hkey]
      simp only [List.length_cons, List.length_append]
      omega
    have hmember : Leads _ (Awaits _ i before indents true) _ :=
      leads_longMember key hvalue hn htail hinside
    refine Leads.mono ?_ (Nat.add_le_add_right hlength _)
    rw [Bool.not_eq_true] at hsimple
    rw [hkey, hsimple]
    simpa using hmember

/-- The members behind the first are scanned up to the next line. -/
theorem exists_leads_printMembers {members : List (String × Json)}
    (h : ∀ m ∈ members, ScansBlock m.2) (hn : n ≤ i) (htail : Begins tail) (outer : List Nat) :
    ∃ n' tail', printMembers i members ++ (indentation n ++ tail) = indentation n' ++ tail' ∧
      n' ≤ i ∧ Begins tail' ∧ ∀ before, Leads (printMembers i members).length
        (Awaits tail' n' before (i :: outer) true)
        (some (Awaits tail n (before ++ pairKinds members) (i :: outer) true)) := by
  induction members with
  | nil =>
    refine ⟨n, tail, rfl, hn, htail, fun before => ?_⟩
    rw [pairKinds, List.append_nil]
    exact Leads.refl
  | cons member members ih =>
    obtain ⟨hmember, hmembers⟩ := List.forall_mem_cons.1 h
    obtain ⟨key, value⟩ := member
    obtain ⟨n', tail', heq, hn', htail', hrest⟩ := ih hmembers
    refine ⟨i, keyLine i key ++ (printValue (!Style.admitsSimpleKey key) i value ++
      (indentation n' ++ tail')), ?_, Nat.le_refl i, begins_keyLine i key value _, fun before => ?_⟩
    · simp only [printMembers, List.append_assoc, heq]
    · obtain ⟨hopenings, hopened⟩ := openings_self .blockMappingStart i outer
      have hfirst : Leads _ (Awaits _ i before (i :: outer) true) _ :=
        leads_member key hmember hn' htail' (isInside_self i outer)
      rw [hopenings, hopened, List.append_nil] at hfirst
      have hboth := hfirst.trans (hrest _)
      have hlength : (keyLine i key).length +
          (printValue (!Style.admitsSimpleKey key) i value).length +
            (printMembers i members).length ≤
          (printMembers i ((key, value) :: members)).length := by
        simp only [printMembers, List.length_append]
        omega
      rw [List.append_assoc] at hboth
      exact hboth.mono hlength

/-! ### Collections -/

/-- A sequence, from its first dash on. -/
theorem leads_items {item : Json} {items : List Json} (hitem : ScansBlock item)
    (hitems : ∀ v ∈ items, ScansBlock v) (hn : n ≤ i) (htail : Begins tail)
    (hinside : IsInside i indents) :
    Leads (1 + (printValue true i item).length + (printItems i items).length)
      (Awaits ('-' :: (printValue true i item ++ (printItems i items ++ (indentation n ++ tail)))) i
        before indents true)
      (some (Awaits tail n
        (before ++ openings .blockSequenceStart i indents ++ entryKinds (item :: items))
        (openedAt i indents) true)) := by
  obtain ⟨outer, hopened⟩ := exists_openedAt_eq hinside
  obtain ⟨n', tail', heq, hn', htail', hrest⟩ := exists_leads_printItems hitems hn htail outer
  have hfirst : Leads _ (Awaits _ i before indents true) _ :=
    leads_entry hitem hn' htail' hinside
  rw [hopened, ← heq] at hfirst
  have hboth := hfirst.trans (hrest _)
  rw [List.append_assoc] at hboth
  rw [hopened]
  exact hboth

/-- A mapping, from its first key on. -/
theorem leads_members {value : Json} {members : List (String × Json)} (key : String)
    (hvalue : ScansBlock value) (hmembers : ∀ m ∈ members, ScansBlock m.2) (hn : n ≤ i)
    (htail : Begins tail) (hinside : IsInside i indents) :
    Leads ((keyLine i key).length + (printValue (!Style.admitsSimpleKey key) i value).length +
        (printMembers i members).length)
      (Awaits (keyLine i key ++ (printValue (!Style.admitsSimpleKey key) i value ++
        (printMembers i members ++ (indentation n ++ tail)))) i before indents true)
      (some (Awaits tail n
        (before ++ openings .blockMappingStart i indents ++ pairKinds ((key, value) :: members))
        (openedAt i indents) true)) := by
  obtain ⟨outer, hopened⟩ := exists_openedAt_eq hinside
  obtain ⟨n', tail', heq, hn', htail', hrest⟩ := exists_leads_printMembers hmembers hn htail outer
  have hfirst : Leads _ (Awaits _ i before indents true) _ :=
    leads_member key hvalue hn' htail' hinside
  rw [hopened, ← heq] at hfirst
  have hboth := hfirst.trans (hrest _)
  rw [List.append_assoc] at hboth
  rw [hopened]
  exact hboth

/-- Two columns deeper, a block is opened. -/
theorem openings_deeper (kind : TokenKind) (k : Nat) (indents : List Nat) :
    openings kind (k + 2) (k :: indents) = [kind] ∧
      openedAt (k + 2) (k :: indents) = (k + 2) :: k :: indents := by
  have hnot : ¬k + 2 ≤ k := by omega
  simp [openings, openedAt, hnot]

/-- Two columns further there is a place inside a block. -/
theorem isInside_deeper (k : Nat) (indents : List Nat) : IsInside (k + 2) (k :: indents) :=
  isInside_of_le (Nat.le_add_right k 2) indents

/-- Items directly below their key, for which no block is opened. -/
theorem leads_itemsBelow {item : Json} {items : List Json} (hitem : ScansBlock item)
    (hitems : ∀ v ∈ items, ScansBlock v) {k : Nat} (hn : n ≤ k) (htail : Begins tail)
    (column : Nat) :
    Leads (printValue false k (.array (item :: items))).length
      (IsIn (printValue false k (.array (item :: items)) ++ (indentation n ++ tail)) column before
        (k :: indents) false)
      (some (Awaits tail n (before ++ blockKinds false (.array (item :: items))) (k :: indents)
        true)) := by
  have hwritten : printValue false k (.array (item :: items)) =
      opening false k ++ '-' :: (printValue true k item ++ printItems k items) := by
    simp [printValue]
  obtain ⟨hopenings, hopened⟩ := openings_self .blockSequenceStart k indents
  have hall : Leads _ (Awaits _ k before (k :: indents) true) _ :=
    leads_items hitem hitems hn htail (isInside_self k indents)
  rw [hopenings, hopened, List.append_nil] at hall
  have hlength : 1 + (printValue true k item).length + (printItems k items).length ≤
      (opening false k ++ '-' :: (printValue true k item ++ printItems k items)).length := by
    simp only [List.length_append, List.length_cons]
    omega
  rw [hwritten]
  refine Leads.mono ?_ hlength
  have hopening : Leads _ (IsIn (opening false k ++ _) column before (k :: indents) false) _ :=
    hall.behindOpening rfl (by simp)
  simpa [blockKinds, entryKinds] using hopening

/-- Items behind a dash or a mark, in a block of their own. -/
theorem leads_itemsBehind {item : Json} {items : List Json} (hitem : ScansBlock item)
    (hitems : ∀ v ∈ items, ScansBlock v) {k : Nat} (hn : n ≤ k) (htail : Begins tail) :
    Leads (printValue true k (.array (item :: items))).length
      (IsIn (printValue true k (.array (item :: items)) ++ (indentation n ++ tail)) (k + 1) before
        (k :: indents) true)
      (some (Awaits tail n (before ++ blockKinds true (.array (item :: items))) (k :: indents)
        true)) := by
  have hwritten : printValue true k (.array (item :: items)) =
      opening true (k + 2) ++
        '-' :: (printValue true (k + 2) item ++ printItems (k + 2) items) := by
    simp [printValue]
  obtain ⟨hopenings, hopened⟩ := openings_deeper .blockSequenceStart k indents
  have hall : Leads _ (Awaits _ (k + 2) before (k :: indents) true) _ :=
    leads_items hitem hitems (Nat.le_trans hn (Nat.le_add_right k 2)) htail
      (isInside_deeper k indents)
  rw [hopenings, hopened] at hall
  have hlength : 1 + (printValue true (k + 2) item).length + (printItems (k + 2) items).length ≤
      (opening true (k + 2) ++
        '-' :: (printValue true (k + 2) item ++ printItems (k + 2) items)).length := by
    simp only [List.length_append, List.length_cons]
    omega
  rw [hwritten]
  refine Leads.mono ?_ hlength
  simpa [blockKinds, entryKinds] using (hall.closed (by omega)).behindOpening rfl fun _ => rfl

/-- An array is scanned as it is printed if its items are. -/
theorem scansBlock_array {items : List Json} (h : ∀ v ∈ items, ScansBlock v) :
    ScansBlock (.array items) := by
  intro sameLine k n column before indents tail hn hcolumn hsame htail
  cases items with
  | nil =>
    have hbrackets : Leads 2
        (Awaits ('[' :: ']' :: ('\n' :: indentation n ++ tail)) (column + 1) before (k :: indents)
          sameLine) _ :=
      leads_emptyBrackets (.inl ⟨rfl, rfl, rfl, rfl⟩) htail (by omega)
    have hlength : 2 ≤ (printValue sameLine k (.array [])).length := by
      rw [printValue]
      decide
    exact (hbrackets.behindSpace rfl).mono hlength
  | cons item items =>
    obtain ⟨hitem, hitems⟩ := List.forall_mem_cons.1 h
    cases sameLine with
    | false => exact leads_itemsBelow hitem hitems hn htail column
    | true =>
      obtain rfl := hsame rfl
      exact leads_itemsBehind hitem hitems hn htail

/-- An object is scanned as it is printed if the values of its members are. -/
theorem scansBlock_object {members : List (String × Json)} (h : ∀ m ∈ members, ScansBlock m.2) :
    ScansBlock (.object members) := by
  intro sameLine k n column before indents tail hn hcolumn hsame htail
  cases members with
  | nil =>
    have hbrackets : Leads 2
        (Awaits ('\x7b' :: '\x7d' :: ('\n' :: indentation n ++ tail)) (column + 1) before
          (k :: indents) sameLine) _ :=
      leads_emptyBrackets (.inr ⟨rfl, rfl, rfl, rfl⟩) htail (by omega)
    have hlength : 2 ≤ (printValue sameLine k (.object [])).length := by
      rw [printValue]
      decide
    exact (hbrackets.behindSpace rfl).mono hlength
  | cons member members =>
    obtain ⟨hvalue, hmembers⟩ := List.forall_mem_cons.1 h
    obtain ⟨key, value⟩ := member
    have hwritten : printValue sameLine k (.object ((key, value) :: members)) =
        opening sameLine (k + 2) ++ (keyLine (k + 2) key ++
          (printValue (!Style.admitsSimpleKey key) (k + 2) value ++
            printMembers (k + 2) members)) := by
      simp [printValue]
    obtain ⟨hopenings, hopened⟩ := openings_deeper .blockMappingStart k indents
    have hall : Leads _ (Awaits _ (k + 2) before (k :: indents) true) _ :=
      leads_members key hvalue hmembers (Nat.le_trans hn (Nat.le_add_right k 2)) htail
        (isInside_deeper k indents)
    rw [hopenings, hopened] at hall
    have hlength : (keyLine (k + 2) key).length +
        (printValue (!Style.admitsSimpleKey key) (k + 2) value).length +
          (printMembers (k + 2) members).length ≤
        (opening sameLine (k + 2) ++ (keyLine (k + 2) key ++
          (printValue (!Style.admitsSimpleKey key) (k + 2) value ++
            printMembers (k + 2) members))).length := by
      simp only [List.length_append]
      omega
    have hcolumn : sameLine = true → column + 1 = k + 2 := fun h => by rw [hsame h]
    rw [hwritten]
    refine Leads.mono ?_ hlength
    simpa [blockKinds, pairKinds] using
      (hall.closed (by omega)).behindOpening (begins_keyLine (k + 2) key value _) hcolumn

open Json (IsExact)

/-- Every value is scanned wherever it stands. -/
theorem scansBlock_of_isExact {v : Json} (h : v.IsExact) : ScansBlock v := by
  induction h with
  | null => exact scansBlock_null
  | boolean b => exact scansBlock_boolean b
  | integer => exact scansBlock_integer _
  | text s => exact scansBlock_text s
  | array _ ih => exact scansBlock_array ih
  | object _ ih => exact scansBlock_object ih

/-- **The tokens of a document.**  What is written for the members of a mapping, of which there is
    one at least, falls into the tokens of the members. -/
theorem ofChars?_printMembers {members : List (String × Json)} (hne : members ≠ [])
    (h : ∀ m ∈ members, m.2.IsExact) :
    (Token.ofChars? (printMembers 0 members)).map (List.map Token.kind) =
      some (.blockMappingStart :: pairKinds members ++ [.blockEnd, .streamEnd]) := by
  have hpermitted : (printMembers 0 members).all isPermitted :=
    List.all_eq_true.2 (arePermitted_printMembers
      (fun m hm => printsPermitted_of_isExact (h m hm)) 0)
  have hscans : ∀ m ∈ members, ScansBlock m.2 := fun m hm => scansBlock_of_isExact (h m hm)
  obtain ⟨⟨key, value⟩, members, rfl⟩ := List.exists_cons_of_ne_nil hne
  obtain ⟨hvalue, hmembers⟩ : ScansBlock value ∧ ∀ m ∈ members, ScansBlock m.2 :=
    List.forall_mem_cons.1 hscans
  have hwritten : printMembers 0 ((key, value) :: members) =
      keyLine 0 key ++ (printValue (!Style.admitsSimpleKey key) 0 value ++
        (printMembers 0 members ++ (indentation 0 ++ []))) := by
    simp [printMembers, indentation]
  have hend : Begins [] := rfl
  have hall : Leads _ (Awaits _ 0 [] [] true) _ :=
    leads_members key hvalue hmembers (Nat.le_refl 0) hend (by simp [IsInside])
  rw [← hwritten] at hall
  have hstart : Awaits (printMembers 0 ((key, value) :: members)) 0 [] [] true
      { cursor := .ofList (printMembers 0 ((key, value) :: members)) } := by
    have hbegins : Begins (printMembers 0 ((key, value) :: members)) := by
      rw [hwritten]
      exact begins_keyLine 0 key value _
    exact IsIn.awaits_indentation (n := 0) ⟨rfl, rfl, rfl, rfl, rfl, rfl, rfl⟩ hbegins
  obtain ⟨steps, hsteps, t, ht, hrun⟩ := hall _ hstart
  have hlength : steps ≤ (printMembers 0 ((key, value) :: members)).length := by
    rw [hwritten]
    simp only [List.length_append]
    omega
  -- The run is allowed a step for each character, and one more for the end.
  obtain ⟨fuel, hfuel⟩ := Nat.exists_eq_add_of_le' hlength
  rw [Token.ofChars?, if_pos hpermitted, hfuel, Nat.add_right_comm, hrun, run?_awaits_nil ht]
  simp [openings, openedAt]

end Scans

end MachineTuning.Yaml
