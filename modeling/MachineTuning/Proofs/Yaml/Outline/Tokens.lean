import MachineTuning.Proofs.Yaml.Block.Tokens

namespace MachineTuning.Yaml

/-!
# Outlines as tokens

An outline is a document as people write it: nested mappings, and in them texts without quotes, each
on the line of its key.  The last line may lack a break.

* `IsUnquoted` — the texts that may stand there as they are, whatever else they look like;
* `Outline.leads`, `Outline.Members.leads` — the scanner finds the tokens of the parts;
* `Outline.Members.ofChars?_eq` — and at the end of the text it has found them all.
-/

/-! ### Texts without quotes -/

/-- Printable characters from a letter or digit on, none of which would be taken for the end of the
    text. -/
structure IsUnquoted (cs : List Char) : Prop where
  ascii : ∀ c ∈ cs, 0x20 ≤ c.toNat ∧ c.toNat < 0x7F
  head : cs.head?.any Char.isAlphanum
  last : cs.getLast? ≠ some ' ' ∧ cs.getLast? ≠ some ':'
  colon : ¬[':', ' '] <:+: cs
  comment : ¬[' ', '#'] <:+: cs

/-- Whether a text is unquoted can be computed. -/
instance (cs : List Char) : Decidable (IsUnquoted cs) :=
  decidable_of_iff
    ((∀ c ∈ cs, 0x20 ≤ c.toNat ∧ c.toNat < 0x7F) ∧ cs.head?.any Char.isAlphanum ∧
      (cs.getLast? ≠ some ' ' ∧ cs.getLast? ≠ some ':') ∧
      Style.hasPair (· = ':') (· = ' ') cs = false ∧ Style.hasPair (· = ' ') (· = '#') cs = false)
    ⟨fun ⟨ascii, head, last, colon, comment⟩ => ⟨ascii, head, last,
        Style.hasPair_eq_false_iff_not_infix.1 colon,
        Style.hasPair_eq_false_iff_not_infix.1 comment⟩,
      fun ⟨ascii, head, last, colon, comment⟩ => ⟨ascii, head, last,
        Style.hasPair_eq_false_iff_not_infix.2 colon,
        Style.hasPair_eq_false_iff_not_infix.2 comment⟩⟩

/-- Printable characters neither break a line nor jump on it. -/
theorem line_of_ascii {c : Char} (h : 0x20 ≤ c.toNat ∧ c.toNat < 0x7F) :
    isBreak c = false ∧ c ≠ '\t' := by
  have hne : ∀ d : Char, d.toNat < 0x20 ∨ 0x7F ≤ d.toNat → c ≠ d := by
    rintro d hd rfl
    omega
  have hbreak : ∀ d ∈ ['\n', '\r', '\u0085', '\u2028', '\u2029'], c ≠ d := by
    have hlist : ∀ d ∈ ['\n', '\r', '\u0085', '\u2028', '\u2029'],
        d.toNat < 0x20 ∨ 0x7F ≤ d.toNat := by
      decide
    exact fun d hd => hne d (hlist d hd)
  refine ⟨?_, hne '\t' (by decide)⟩
  simpa [isBreak, and_assoc] using hbreak

/-- Colons that end no word and number signs that start none are not taken for punctuation. -/
theorem holdsPunctuation_of_infix {cs : List Char} (hline : ∀ c ∈ cs, isBreak c = false ∧ c ≠ '\t')
    (hlast : cs.getLast? ≠ some ':') (hcolon : ¬[':', ' '] <:+: cs)
    (hcomment : ¬[' ', '#'] <:+: cs) : Style.holdsPunctuation cs = false := by
  induction cs with
  | nil => rfl
  | cons c cs ih =>
    obtain ⟨hc, hcs⟩ := List.forall_mem_cons.1 hline
    cases cs with
    | nil => rfl
    | cons d cs =>
      rw [List.getLast?_cons_cons] at hlast
      have hrest : Style.holdsPunctuation (d :: cs) = false :=
        ih hcs hlast (fun h => hcolon (h.trans (List.suffix_cons c _).isInfix))
          fun h => hcomment (h.trans (List.suffix_cons c _).isInfix)
      -- Two neighbours are looked at in each step, since the signs count only beside a blank.
      have hword : d = ':' → atGap cs = false := by
        rintro rfl
        cases cs with
        | nil => exact absurd rfl hlast
        | cons e cs =>
          have he := hcs e (by simp)
          have hspace : e ≠ ' ' := by
            rintro rfl
            exact hcolon ⟨[c], cs, rfl⟩
          simp [atGap, isBlank, hspace, he]
      have hsign : d = '#' → c ≠ ' ' := by
        rintro rfl rfl
        exact hcomment ⟨[], cs, rfl⟩
      rw [Style.holdsPunctuation, hrest, Bool.or_false, Bool.or_eq_false_iff]
      constructor
      · simpa using hword
      · simpa [isBlank, hc] using hsign

namespace IsUnquoted

variable {cs : List Char}

/-- An unquoted text holds permitted characters only. -/
theorem arePermitted (h : IsUnquoted cs) : ArePermitted cs := fun c hc =>
  isPermitted_of_ascii (h.ascii c hc).1 (h.ascii c hc).2

/-- No punctuation stands in front of such a text. -/
theorem head?_ne (h : IsUnquoted cs) {d : Char} (hd : d.isAlphanum = false) :
    cs.head? ≠ some d := by
  intro heq
  have hhead := h.head
  rw [heq, Option.any_some, hd] at hhead
  cases hhead

/-- So it may stand without quotes. -/
theorem isPlain (h : IsUnquoted cs) : IsPlain cs := by
  have hline : ∀ c ∈ cs, isBreak c = false ∧ c ≠ '\t' := fun c hc => line_of_ascii (h.ascii c hc)
  have hinner := holdsPunctuation_of_infix hline h.last.2 h.colon h.comment
  cases cs with
  | nil => cases h.head
  | cons c cs =>
    have hc : c.isAlphanum := h.head
    have hdash : '-' ≠ c := (Scanner.ne_of_isAlphanum hc '-' rfl).symm
    have hpoint : '.' ≠ c := (Scanner.ne_of_isAlphanum hc '.' rfl).symm
    exact
      { ne_nil := List.cons_ne_nil c cs
        border := by simp [Style.startsLikeBorder, List.isPrefixOf, hdash, hpoint]
        start := startsLikePunctuation_of_isAlphanum hc cs
        inner := hinner
        line := hline
        head := h.head?_ne rfl
        last := h.last.1 }

end IsUnquoted

/-! ### What follows -/

namespace Scanner

/-- The text is over where the blocks have been closed. -/
def Finishes (before : List TokenKind) (indents : List Nat) (s : Scanner) : Prop :=
  ∀ fuel, (run? (fuel + 1) s).map (List.map Token.kind) =
    some (before ++ indents.map (fun _ => .blockEnd) ++ [.streamEnd])

/-- What may stand behind a part of a block at `k`, and what is said there of the tokens so far, the
    open blocks and the scanner. -/
inductive Follows (k : Nat) : List Char → (List TokenKind → List Nat → Scanner → Prop) → Prop
  /-- The end of the text. -/
  | nil : Follows k [] Finishes
  /-- The next line, which does not lie deeper. -/
  | line {n : Nat} {tail : List Char} (hn : n ≤ k) (htail : Begins tail) :
      Follows k ('\n' :: indentation n ++ tail)
        fun before indents => Awaits tail n before indents true

section Follows

variable {k i column : Nat} {behind text : List Char} {before : List TokenKind} {indents : List Nat}
  {reached : List TokenKind → List Nat → Scanner → Prop}

/-- What follows a block follows the blocks inside it. -/
theorem Follows.deeper (h : Follows k behind reached) (hle : k ≤ i) :
    Follows i behind reached := by
  cases h with
  | nil => exact .nil
  | line hn htail => exact .line (Nat.le_trans hn hle) htail

/-- A block that lies deeper is closed there. -/
theorem Follows.closed (h : Follows k behind reached) (hlt : k < i) {s : Scanner}
    (hs : reached before (i :: indents) s) : reached (before ++ [.blockEnd]) indents s := by
  cases h with
  | nil => exact fun fuel => by simpa using hs fuel
  | line hn _ => exact hs.close (Nat.lt_of_le_of_lt hn hlt)

/-- A text without quotes at the end of the document. -/
theorem leads_plainEnd (h : IsPlain text) (hmark : text.head? ≠ some '\ufeff')
    (hcolumn : k < column) :
    Leads 1 (Awaits text column before (k :: indents) false)
      (some (Finishes (before ++ [.scalar .plain text]) (k :: indents))) := by
  have hscalar : IsScalar k text [] (.scalar .plain text) _ false := isScalar_plain h hmark .nil
  obtain ⟨c, cs, heq, -, htoken⟩ := hscalar
  rw [List.append_nil] at heq htoken
  rw [heq]
  refine leads_of_awaits (isInside_of_le (Nat.le_of_lt hcolumn) indents) fun s hs => ?_
  have hindent : s.indent = k := by rw [indent, hs.indents]
  obtain ⟨stop, htoken⟩ := htoken s column before (k :: indents) false (heq ▸ hs) hindent (by omega)
  refine ⟨_, htoken, ?_⟩
  -- Behind a colon no key may start, so that the scalar leaves none pending.
  have hkey : (s.behindScalar (.scalar .plain text) stop ⟨[], s.mark.after text⟩ false).key =
      none := by
    show (if s.keyAllowed then _ else none) = none
    rw [hs.keyAllowed]
    rfl
  have hkinds : (s.behindScalar (.scalar .plain text) stop ⟨[], s.mark.after text⟩ false).kinds =
      before ++ [.scalar .plain text] := by
    rw [← hs.kinds]
    exact kinds_emit ..
  have hend : IsIn [] (s.mark.after text).column (before ++ [.scalar .plain text]) (k :: indents)
      false (s.behindScalar (.scalar .plain text) stop ⟨[], s.mark.after text⟩ false) :=
    ⟨rfl, rfl, hkinds, hs.indents, rfl, hkey, hs.outerKeys⟩
  exact heq ▸ run?_awaits_nil (IsIn.awaits_indentation (n := 0) hend rfl)

/-- A text without quotes behind its key. -/
theorem leads_unquoted (h : IsUnquoted text) (hfollows : Follows k behind reached)
    (hcolumn : k < column) :
    Leads 1 (IsIn (' ' :: (text ++ behind)) column before (k :: indents) false)
      (some (reached (before ++ [.scalar .plain text]) (k :: indents))) := by
  have hmark : text.head? ≠ some '\ufeff' := h.head?_ne (by decide)
  have hbegins := begins_of_isPlain h.isPlain hmark behind
  refine Leads.behindSpace ?_ hbegins
  cases hfollows with
  | nil =>
    rw [List.append_nil]
    exact leads_plainEnd h.isPlain hmark (Nat.lt_succ_of_lt hcolumn)
  | line hn htail => exact leads_plainLine h.isPlain hmark hn htail (Nat.lt_succ_of_lt hcolumn)

end Follows

end Scanner

/-! ### Outlines -/

/-- A text that may stand without quotes. -/
structure UnquotedText where
  text : String
  isUnquoted : IsUnquoted text.toList

/-- A key that is short enough to stand on a line with its value. -/
structure SimpleKey where
  text : String
  isSimple : Style.admitsSimpleKey text

mutual
/-- What stands behind a key: a text without quotes, or a mapping on the lines below. -/
inductive Outline where
  | text (s : UnquotedText)
  | mapping (members : Outline.Members)

/-- The members of a mapping, of which there is one at least. -/
inductive Outline.Members where
  | last (key : SimpleKey) (value : Outline)
  | cons (key : SimpleKey) (value : Outline) (rest : Outline.Members)
end

mutual
/-- What is written behind a key in a block at `k`. -/
def Outline.chars (k : Nat) : Outline → List Char
  | .text s => ' ' :: s.text.toList
  | .mapping members => '\n' :: indentation (k + 2) ++ members.chars (k + 2)

/-- What is written for the members of a block at `i`, from the first key on. -/
def Outline.Members.chars (i : Nat) : Outline.Members → List Char
  | .last key value => keyChars key.text ++ ':' :: value.chars i
  | .cons key value rest =>
    keyChars key.text ++ ':' :: (value.chars i ++ ('\n' :: indentation i ++ rest.chars i))
end

open Scanner

mutual
/-- The kinds of the tokens behind a key. -/
def Outline.kinds : Outline → List TokenKind
  | .text s => [.scalar .plain s.text.toList]
  | .mapping members => .blockMappingStart :: members.kinds ++ [.blockEnd]

/-- The kinds of the tokens of members. -/
def Outline.Members.kinds : Outline.Members → List TokenKind
  | .last key value => .key :: textKind key.text :: .value :: value.kinds
  | .cons key value rest => .key :: textKind key.text :: .value :: value.kinds ++ rest.kinds
end

namespace SimpleKey

variable (key : SimpleKey)

/-- A key is written with at least one character. -/
theorem length_keyChars_pos : 0 < (keyChars key.text).length :=
  List.length_pos_iff.2 (keyChars_ne_nil key.text)

/-- A key is written in permitted characters. -/
theorem arePermitted_keyChars : ArePermitted (keyChars key.text) := fun c hc =>
  (forall_mem_keyChars key.isSimple c hc).1

/-- A key starts its line. -/
theorem begins_keyChars {rest : List Char} (hrest : atGap rest) :
    Begins (keyChars key.text ++ ':' :: rest) := by
  obtain ⟨c, cs, heq, hc, -⟩ := isScalar_keyChars key.isSimple hrest 0
  rw [heq]
  exact hc

end SimpleKey

namespace Outline

mutual
/-- An outline is written in permitted characters. -/
theorem arePermitted_chars (k : Nat) : ∀ o : Outline, ArePermitted (o.chars k)
  | .text s => s.isUnquoted.arePermitted.cons rfl
  | .mapping members =>
    ((arePermitted_indentation (k + 2)).cons rfl).append (members.arePermitted_chars (k + 2))

/-- Members are written in permitted characters. -/
theorem Members.arePermitted_chars (i : Nat) : ∀ members : Members, ArePermitted (members.chars i)
  | .last key value =>
    key.arePermitted_keyChars.append ((value.arePermitted_chars i).cons rfl)
  | .cons key value rest => by
    have hline : ArePermitted ('\n' :: indentation i) := (arePermitted_indentation i).cons rfl
    exact key.arePermitted_keyChars.append
      (((value.arePermitted_chars i).append (hline.append (rest.arePermitted_chars i))).cons rfl)
end

/-- Behind the colon of a key stands a gap. -/
theorem atGap_chars (k : Nat) (o : Outline) (behind : List Char) : atGap (o.chars k ++ behind) := by
  cases o <;> rfl

/-- The first key starts a line. -/
theorem Members.begins_chars (i : Nat) (members : Members) (behind : List Char) :
    Begins (members.chars i ++ behind) := by
  cases members with
  | last key value =>
    rw [chars, List.append_assoc]
    exact key.begins_keyChars (atGap_chars i value behind)
  | cons key value rest =>
    rw [chars, List.append_assoc, List.cons_append, List.append_assoc]
    exact key.begins_keyChars (atGap_chars i value _)

mutual
/-- **The tokens behind a key** are found up to what follows. -/
theorem leads : ∀ (o : Outline) {k column : Nat} {behind : List Char} {before : List TokenKind}
    {indents : List Nat} {reached : List TokenKind → List Nat → Scanner → Prop},
    Follows k behind reached → k < column →
    Leads (o.chars k).length (IsIn (o.chars k ++ behind) column before (k :: indents) false)
      (some (reached (before ++ o.kinds) (k :: indents)))
  | .text s, k, _, _, _, _, _, hfollows, hcolumn =>
    (leads_unquoted s.isUnquoted hfollows hcolumn).mono (Nat.succ_le_succ (Nat.zero_le _))
  | .mapping members, k, column, behind, before, indents, _, hfollows, _ => by
    -- The members stand two columns further in than their key, which opens a block.
    obtain ⟨hopenings, hopened⟩ := openings_deeper .blockMappingStart k indents
    have hmembers : Leads _ (Awaits _ (k + 2) before (k :: indents) true) _ :=
      members.leads (hfollows.deeper (Nat.le_add_right k 2)) (isInside_deeper k indents)
    rw [hopenings, hopened] at hmembers
    have hclosed := hmembers.imp fun _ => hfollows.closed (Nat.lt_add_of_pos_right Nat.two_pos)
    have hline : Leads _ (IsIn ('\n' :: indentation (k + 2) ++ _) column before _ false) _ :=
      hclosed.of_imp fun s hs => hs.awaits_line (members.begins_chars (k + 2) behind)
    have hlength : (members.chars (k + 2)).length ≤ ((mapping members).chars k).length := by
      rw [chars, List.length_append]
      omega
    refine Leads.mono ?_ hlength
    simpa only [chars, kinds, List.append_assoc, List.cons_append, List.nil_append] using hline

/-- **The tokens of members** are found up to what follows. -/
theorem Members.leads : ∀ (members : Members) {i : Nat} {behind : List Char}
    {before : List TokenKind} {indents : List Nat}
    {reached : List TokenKind → List Nat → Scanner → Prop},
    Follows i behind reached → IsInside i indents →
    Leads (members.chars i).length (Awaits (members.chars i ++ behind) i before indents true)
      (some (reached (before ++ openings .blockMappingStart i indents ++ members.kinds)
        (openedAt i indents)))
  | .last key value, i, behind, before, indents, reached, hfollows, hinside => by
    have hmember : Leads _ (Awaits _ i before indents true) _ :=
      leads_simpleMember reached key.isSimple (atGap_chars i value behind) hinside
        fun _ _ _ hlt => value.leads hfollows hlt
    have hlength : 2 + (value.chars i).length ≤ ((Members.last key value).chars i).length := by
      have hpos := key.length_keyChars_pos
      simp only [Members.chars, List.length_append, List.length_cons]
      omega
    refine Leads.mono ?_ hlength
    simpa only [Members.chars, Members.kinds, List.append_assoc, List.cons_append] using hmember
  | .cons key value rest, i, behind, before, indents, _, hfollows, hinside => by
    obtain ⟨outer, hopened⟩ := exists_openedAt_eq hinside
    obtain ⟨hopenings, hself⟩ := openings_self .blockMappingStart i outer
    -- The next key stands in the column of this one, so its line ends the value.
    have hnext : Follows i ('\n' :: indentation i ++ (rest.chars i ++ behind)) _ :=
      .line (Nat.le_refl i) (rest.begins_chars i behind)
    have hmember : Leads _ (Awaits _ i before indents true) _ :=
      leads_simpleMember _ key.isSimple (atGap_chars i value _) hinside
        fun _ _ _ hlt => value.leads hnext hlt
    rw [hopened] at hmember
    have hrest := hmember.trans (rest.leads hfollows (isInside_self i outer))
    have hlength : 2 + (value.chars i).length + (rest.chars i).length ≤
        ((Members.cons key value rest).chars i).length := by
      have hpos := key.length_keyChars_pos
      simp only [Members.chars, List.length_append, List.length_cons]
      omega
    rw [hopenings, hself, List.append_nil] at hrest
    rw [hopened]
    refine Leads.mono ?_ hlength
    simpa only [Members.chars, Members.kinds, List.append_assoc, List.cons_append] using hrest
end

/-- **The tokens of an outline.**  With or without a break at the end, what is written for members
    falls into their tokens. -/
theorem Members.ofChars?_eq (members : Members) {ending : List Char}
    (hending : ending = [] ∨ ending = ['\n']) :
    (Token.ofChars? (members.chars 0 ++ ending)).map (List.map Token.kind) =
      some (.blockMappingStart :: members.kinds ++ [.blockEnd, .streamEnd]) := by
  have hpermitted : (members.chars 0 ++ ending).all isPermitted := by
    have hend : ArePermitted ending := by
      rcases hending with rfl | rfl <;> exact arePermitted_of_all rfl
    exact List.all_eq_true.2 ((members.arePermitted_chars 0).append hend)
  have hstart : Awaits (members.chars 0 ++ ending) 0 [] [] true
      { cursor := .ofList (members.chars 0 ++ ending) } :=
    IsIn.awaits_indentation (n := 0) ⟨rfl, rfl, rfl, rfl, rfl, rfl, rfl⟩
      (members.begins_chars 0 ending)
  have hinside : IsInside 0 [] := nofun
  have hend : ∃ reached, Follows 0 ending reached ∧
      ∀ before indents s, reached before indents s → s.Finishes before indents := by
    rcases hending with rfl | rfl
    · exact ⟨_, .nil, fun _ _ _ h => h⟩
    · have hline : Follows 0 ('\n' :: indentation 0 ++ []) _ := .line (Nat.le_refl 0) rfl
      exact ⟨_, hline, fun _ _ _ => run?_awaits_nil⟩
  obtain ⟨reached, hfollows, hfinishes⟩ := hend
  obtain ⟨steps, hsteps, t, ht, hrun⟩ := members.leads hfollows hinside _ hstart
  -- The run is allowed a step for each character, and one more for the end.
  obtain ⟨fuel, hfuel⟩ : ∃ fuel, (members.chars 0 ++ ending).length = fuel + steps :=
    Nat.exists_eq_add_of_le' (hsteps.trans (by simp))
  rw [Token.ofChars?, if_pos hpermitted, hfuel, Nat.add_right_comm, hrun, hfinishes _ _ _ ht]
  simp [openings, openedAt]

end Outline

end MachineTuning.Yaml
