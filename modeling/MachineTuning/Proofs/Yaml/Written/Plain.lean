import Mathlib.Data.Int.SuccPred
import MachineTuning.Proofs.Yaml.Written.Quoted
import MachineTuning.Yaml.Token.PlainScalar

namespace MachineTuning.Yaml

/-!
# Plain texts — what YAML writes without quotes is read back

A text is written without quotes only if nothing in it looks like punctuation.  It is read word by
word, up to its colon if it is a key, and up to the next line if it is none.

* `PlainScalar.IsEnd` — what may follow a text, and where reading goes on;
* `PlainScalar.exists_takeWords?_eq` — word after word is read, with the spaces between them;
* `IsPlain.exists_take?_eq` — so the text is read as it was.
-/

/-- A text that may stand without quotes. -/
structure IsPlain (cs : List Char) : Prop where
  ne_nil : cs ≠ []
  border : Style.startsLikeBorder cs = false
  start : Style.startsLikePunctuation cs = false
  inner : Style.holdsPunctuation cs = false
  line : ∀ c ∈ cs, isBreak c = false ∧ c ≠ '\t'
  head : cs.head? ≠ some ' '
  last : cs.getLast? ≠ some ' '

/-! ### The next line -/

/-- No line break stands in indentation. -/
theorem not_isBreak_of_mem_indentation {n : Nat} : ∀ c ∈ indentation n, isBreak c = false :=
  fun c hc => by rw [mem_indentation hc]; rfl

/-- Spaces take up as many columns. -/
theorem column_after_spaces (n : Nat) (m : Mark) :
    (m.after (indentation n)).column = m.column + n := by
  rw [Mark.column_after m not_isBreak_of_mem_indentation, indentation, List.length_replicate]

/-- The column behind the indentation of a line. -/
theorem column_after_indentation (n : Nat) (m : Mark) :
    (m.after ('\n' :: indentation n)).column = n := by
  show ((m.nextLine _).after (indentation n)).column = n
  rw [column_after_spaces]
  exact Nat.zero_add n

/-- A gap of spaces on a line. -/
theorem Gap.take?_spaces {spaces rest : List Char} (hspaces : ∀ c ∈ spaces, c = ' ')
    (hrest : atGap rest = false) (floor : Int) (m : Mark) :
    Gap.take? floor ⟨spaces ++ rest, m⟩ = some (⟨spaces, []⟩, ⟨rest, m.after spaces⟩) := by
  have hraw : ∀ c ∈ spaces, isRawGap c := fun c hc => by rw [hspaces c hc]; rfl
  have hblank : ∀ c ∈ spaces, isBlank c := fun c hc => by rw [hspaces c hc]; rfl
  have hbreaks : spaces.filter isBreak = [] :=
    List.filter_eq_nil_iff.2 fun c hc => by rw [hspaces c hc]; decide
  rw [Gap.take?_raw hraw (fun _ => hrest), Gap.ofRaw, List.takeWhile_eq_self_iff.2 hblank, hbreaks]
  rfl

/-- The gap up to the next line. -/
theorem Gap.take?_line {n : Nat} {tail : List Char} (htail : tail ≠ [] → atGap tail = false)
    (floor : Int) (m : Mark) :
    Gap.take? floor ⟨'\n' :: indentation n ++ tail, m⟩ =
      some (⟨[], ['\n']⟩, ⟨tail, m.after ('\n' :: indentation n)⟩) := by
  have hraw : ∀ c ∈ indentation n, isRawGap c := fun c hc => by rw [mem_indentation hc]; rfl
  have hbreaks : (indentation n).filter isBreak = [] :=
    List.filter_eq_nil_iff.2 fun c hc => by rw [not_isBreak_of_mem_indentation c hc]; decide
  have hbehind (m : Mark) := Gap.takeBreaks?_raw hraw htail floor m
  rw [hbreaks] at hbehind
  simp [take?, Cursor.takeWhile, Cursor.takeWhile.go, takeBreaks?, hbehind, Mark.after, isBlank,
    show isBreak '\n' = true from rfl, show breakChar '\n' = '\n' from rfl]

namespace PlainScalar

/-- Below a block that is indented to `indent`, what may follow a plain text, where reading goes on
    behind it, and whether that is another line. -/
inductive IsEnd (indent : Int) : List Char → (Mark → Cursor) → Bool → Prop
  /-- Nothing. -/
  | nil : IsEnd indent [] (fun m => ⟨[], m⟩) false
  /-- The colon of a key. -/
  | colon {cs : List Char} (hcs : atGap cs) :
      IsEnd indent (':' :: cs) (fun m => ⟨':' :: cs, m⟩) false
  /-- The end of the line, if the next one is not indented deeper. -/
  | line {n : Nat} {tail : List Char} (hn : (n : Int) ≤ indent)
      (htail : tail ≠ [] → atGap tail = false) :
      IsEnd indent ('\n' :: indentation n ++ tail)
        (fun m => ⟨tail, m.after ('\n' :: indentation n)⟩) true

/-- What is left of a text without quotes in front of a word. -/
structure IsRest (cs : List Char) : Prop where
  line : ∀ c ∈ cs, isBreak c = false ∧ c ≠ '\t'
  colon : ∀ rest, cs = ':' :: rest → atGap rest = false
  inner : Style.holdsPunctuation cs = false

section Words

variable {cs behind : List Char} {c : Char} {indent : Int} {after : Mark → Cursor} {broke : Bool}
  {m : Mark}

/-- The rest of a plain text stays one without its first character. -/
theorem IsRest.tail (h : IsRest (c :: cs)) : IsRest cs := by
  refine ⟨(List.forall_mem_cons.1 h.line).2, ?_, ?_⟩
  · rintro rest rfl
    have hinner := h.inner
    simp only [Style.holdsPunctuation, Bool.or_eq_false_iff] at hinner
    simpa using hinner.1.1
  · have hinner := h.inner
    cases cs with
    | nil => rfl
    | cons d cs =>
      rw [Style.holdsPunctuation, Bool.or_eq_false_iff] at hinner
      exact hinner.2

/-- The rest of a plain text stays one from any place on. -/
theorem IsRest.suffix {ds : List Char} (h : IsRest cs) (hsuffix : ds <:+ cs) : IsRest ds := by
  obtain ⟨front, rfl⟩ := hsuffix
  induction front with
  | nil => exact h
  | cons c front ih => exact ih h.tail

/-- No comment starts behind a space. -/
theorem IsRest.ne_comment (h : IsRest (' ' :: cs)) : cs.head? ≠ some '#' := by
  have hinner := h.inner
  cases cs with
  | nil => simp
  | cons d cs =>
    simp only [Style.holdsPunctuation, Bool.or_eq_false_iff, Bool.and_eq_false_iff,
      decide_eq_false_iff_not] at hinner
    intro heq
    rcases hinner.1.2 with hd | hspace
    · exact hd (Option.some.inj heq)
    · simp [isBlank] at hspace

/-- A plain text ends at its end. -/
theorem IsEnd.endsHere (h : IsEnd indent behind after broke) : endsHere false behind = true := by
  cases h with
  | nil => rfl
  | colon hcs => simp [PlainScalar.endsHere, hcs]
  | line => rfl

/-- A word is read up to the next space or to the end. -/
theorem takeWord?_append (h : IsRest cs) (hbehind : endsHere false behind = true) (m : Mark) :
    takeWord? false (cs ++ behind) m =
      some (cs.takeWhile (· ≠ ' '),
        ⟨cs.dropWhile (· ≠ ' ') ++ behind, m.after (cs.takeWhile (· ≠ ' '))⟩) := by
  have hcolon (ds : List Char) : badColon false ds = false := by
    unfold badColon
    split <;> rfl
  induction cs generalizing m with
  | nil =>
    cases behind with
    | nil => rfl
    | cons d behind =>
      rw [List.nil_append, takeWord?, hcolon, hbehind]
      rfl
  | cons c cs ih =>
    by_cases hspace : c = ' '
    · subst hspace
      rw [List.cons_append, takeWord?, hcolon]
      rfl
    · obtain ⟨⟨hbreak, htab⟩, -⟩ := List.forall_mem_cons.1 h.line
      -- A colon inside a plain text has no gap behind it, so that it does not end the word.
      have hgap : c = ':' → atGap (cs ++ behind) = false := by
        rintro rfl
        have hcs := h.colon cs rfl
        cases cs with
        | nil => cases hcs
        | cons d cs => exact hcs
      have hends : PlainScalar.endsHere false (c :: (cs ++ behind)) = false := by
        by_cases hc : c = ':'
        · simp [PlainScalar.endsHere, isBlank, hspace, htab, hbreak, hgap hc]
        · simp [PlainScalar.endsHere, isBlank, hspace, htab, hbreak, hc]
      rw [List.cons_append, takeWord?, hcolon, hends]
      simp [ih h.tail, hspace, Mark.after_cons_of_not_isBreak m hbreak]

/-- A text falls into a word, spaces, and what starts with another word. -/
structure SplitsAt (cs word spaces next : List Char) : Prop where
  takeWhile : cs.takeWhile (· ≠ ' ') = word
  dropWhile : cs.dropWhile (· ≠ ' ') = spaces ++ next
  spaces_eq : ∀ c ∈ spaces, c = ' '
  spaces_ne : spaces ≠ []
  next_ne : next ≠ []
  next_head : next.head? ≠ some ' '

/-- A text that does not start with a space starts with a word. -/
theorem takeWhile_ne_nil (hne : cs ≠ []) (hhead : cs.head? ≠ some ' ') :
    cs.takeWhile (· ≠ ' ') ≠ [] := by
  obtain ⟨c, cs, rfl⟩ := List.exists_cons_of_ne_nil hne
  have hc : c ≠ ' ' := fun heq => hhead (congrArg some heq)
  simp [hc]

/-- If the first word is not all of a text, spaces and another word follow. -/
theorem exists_splitsAt (hdrop : cs.dropWhile (· ≠ ' ') ≠ []) (hlast : cs.getLast? ≠ some ' ') :
    ∃ word spaces next, SplitsAt cs word spaces next := by
  -- A last character that is no space stays the last one when the first word is taken off.
  have hlast' : (cs.dropWhile (· ≠ ' ')).getLast? ≠ some ' ' := by
    have hsplit := List.takeWhile_append_dropWhile (p := (· ≠ ' ')) (l := cs)
    rwa [← hsplit, List.getLast?_append_of_ne_nil _ hdrop] at hlast
  have hfirst := List.head?_dropWhile_not (· ≠ ' ') cs
  generalize hrest : cs.dropWhile (· ≠ ' ') = rest at hdrop hlast' hfirst
  have hspaces : ∀ c ∈ rest.takeWhile (· = ' '), c = ' ' := fun c hc => by
    simpa using List.mem_takeWhile_imp hc
  have hsplit := List.takeWhile_append_dropWhile (p := (· = ' ')) (l := rest)
  refine ⟨_, rest.takeWhile (· = ' '), rest.dropWhile (· = ' '), rfl, ?_, hspaces, ?_, ?_, ?_⟩
  · rw [hrest, hsplit]
  · obtain ⟨c, rest, rfl⟩ := List.exists_cons_of_ne_nil hdrop
    obtain rfl : c = ' ' := by simpa using hfirst
    simp
  · -- With nothing behind the spaces, the last character would be one.
    intro hnil
    rw [hnil, List.append_nil] at hsplit
    rw [hsplit] at hspaces
    rw [List.getLast?_eq_some_getLast hdrop, hspaces _ (List.getLast_mem hdrop)] at hlast'
    exact hlast' rfl
  · intro heq
    have hnext := List.head?_dropWhile_not (· = ' ') rest
    rw [heq] at hnext
    simp at hnext

namespace SplitsAt

variable {word spaces next : List Char} (h : SplitsAt cs word spaces next)
include h

/-- A text falls into a word, spaces and the next words. -/
theorem eq_append : cs = word ++ (spaces ++ next) := by
  rw [← h.takeWhile, ← h.dropWhile, List.takeWhile_append_dropWhile]

/-- The last of the spaces is the one in front of the next word. -/
theorem isSuffix : ' ' :: next <:+ cs := by
  obtain ⟨front, c, rfl⟩ := (List.eq_nil_or_concat' spaces).resolve_left h.spaces_ne
  obtain rfl : c = ' ' := h.spaces_eq c (List.mem_append_right _ List.mem_cons_self)
  exact ⟨word ++ front, by rw [h.eq_append]; simp⟩

/-- The next words end as the text does. -/
theorem getLast?_eq : cs.getLast? = next.getLast? := by
  rw [h.eq_append, ← List.append_assoc, List.getLast?_append_of_ne_nil _ h.next_ne]

/-- The next words do not start with a gap. -/
theorem not_atGap_next (hrest : IsRest cs) (behind : List Char) :
    atGap (next ++ behind) = false := by
  have hnext := (hrest.suffix h.isSuffix).tail
  have hhead := h.next_head
  obtain ⟨d, next, rfl⟩ := List.exists_cons_of_ne_nil h.next_ne
  obtain ⟨hbreak, htab⟩ := hnext.line d List.mem_cons_self
  have hspace : d ≠ ' ' := fun heq => hhead (congrArg some heq)
  simp [atGap, isBlank, hspace, htab, hbreak]

/-- Behind the spaces the column is further right. -/
theorem column_lt (hrest : IsRest cs) (m : Mark) :
    m.column < ((m.after word).after spaces).column := by
  have hline : ∀ c ∈ word ++ spaces, isBreak c = false := by
    intro c hc
    have hmem : c ∈ cs := by
      rw [h.eq_append, ← List.append_assoc]
      exact List.mem_append_left _ hc
    exact (hrest.line c hmem).1
  have hpos := List.length_pos_of_ne_nil h.spaces_ne
  rw [← Mark.after_append, Mark.column_after m hline, List.length_append]
  omega

end SplitsAt

section Steps

variable {fuel : Nat} (hcomment : (cs ++ behind).head? ≠ some '#')
  (hborder : Cursor.atDocumentBorder ⟨cs ++ behind, m⟩ = false) (gap : Gap) (stop : Mark)
include hcomment hborder

/-- Behind the last word the text ends. -/
theorem takeWords?_lastWord (hne : cs ≠ [])
    (htake : takeWord? false (cs ++ behind) m = some (cs, ⟨behind, m.after cs⟩))
    (hend : IsEnd indent behind after broke) :
    takeWords? false indent (fuel + 1) gap stop ⟨cs ++ behind, m⟩ =
      some ⟨gap.folded ++ cs, m.after cs, after (m.after cs), broke⟩ := by
  rw [takeWords?]
  simp only [hborder, hcomment, htake, Bool.false_eq_true, or_self, if_false]
  cases hend with
  | nil => simp [hne]
  | colon hcs => simp [hne, atGap, isBlank, isBreak]
  | @line n tail hn htail =>
    have hgap : Gap.take? (indent + 1) ⟨'\n' :: (indentation n ++ tail), m.after cs⟩ =
        some (⟨[], ['\n']⟩, ⟨tail, (m.after cs).after ('\n' :: indentation n)⟩) :=
      Gap.take?_line htail _ _
    have hcolumn := column_after_indentation n (m.after cs)
    simp [hne, hgap, hcolumn, atGap, isBreak, hn]

/-- Behind any other word stands a gap, which leads to a place right of the block. -/
theorem takeWords?_word {word spaces next : List Char} {read : PlainScalar} (hword : word ≠ [])
    (hsplit : SplitsAt cs word spaces next)
    (htake : takeWord? false (cs ++ behind) m =
      some (word, ⟨spaces ++ (next ++ behind), m.after word⟩))
    (hnext : atGap (next ++ behind) = false)
    (hcolumn : indent < ((m.after word).after spaces).column)
    (hread : takeWords? false indent fuel ⟨spaces, []⟩ (m.after word)
      ⟨next ++ behind, (m.after word).after spaces⟩ = some read) :
    takeWords? false indent (fuel + 1) gap stop ⟨cs ++ behind, m⟩ =
      some { read with text := gap.folded ++ word ++ read.text } := by
  have hgap := Gap.take?_spaces hsplit.spaces_eq hnext (indent + 1) (m.after word)
  have hspaces := hsplit.spaces_ne
  have hatGap : atGap (spaces ++ (next ++ behind)) = true := by
    obtain ⟨c, spaces, rfl⟩ := List.exists_cons_of_ne_nil hspaces
    rw [hsplit.spaces_eq c List.mem_cons_self]
    rfl
  have hdeeper : ¬(((m.after word).after spaces).column : Int) ≤ indent := Int.not_le.2 hcolumn
  rw [takeWords?]
  simp only [hborder, hcomment, htake, Bool.false_eq_true, or_self, if_false]
  simp [hword, hspaces, hatGap, hgap, hdeeper, hread]

end Steps

/-- From a word on, all words are read. -/
theorem exists_takeWords?_eq (h : IsRest cs) (hne : cs ≠ []) (hhead : cs.head? ≠ some ' ')
    (hcomment : cs.head? ≠ some '#') (hlast : cs.getLast? ≠ some ' ')
    (hend : IsEnd indent behind after broke) (hcolumn : indent ≤ m.column)
    (hborder : Cursor.atDocumentBorder ⟨cs ++ behind, m⟩ = false) {fuel : Nat}
    (hfuel : cs.length < fuel) (gap : Gap) (stop : Mark) :
    ∃ last, takeWords? false indent fuel gap stop ⟨cs ++ behind, m⟩ =
      some ⟨gap.folded ++ cs, last, after (m.after cs), broke⟩ := by
  induction fuel generalizing cs m gap stop with
  | zero => cases hfuel
  | succ fuel ih =>
    have hcommentBehind : (cs ++ behind).head? ≠ some '#' := by
      rwa [List.head?_append_of_ne_nil _ hne]
    have htake := takeWord?_append h hend.endsHere m
    have hword := takeWhile_ne_nil hne hhead
    -- The induction is on the fuel: either the word is the last, or the spaces behind it are the
    -- gap that the next round begins with.
    by_cases hdrop : cs.dropWhile (· ≠ ' ') = []
    · have hall : cs.takeWhile (· ≠ ' ') = cs := by
        have hsplit := List.takeWhile_append_dropWhile (p := (· ≠ ' ')) (l := cs)
        rwa [hdrop, List.append_nil] at hsplit
      rw [hall, hdrop] at htake
      exact ⟨_, takeWords?_lastWord hcommentBehind hborder gap stop hne htake hend⟩
    · obtain ⟨word, spaces, next, hsplit⟩ := exists_splitsAt hdrop hlast
      rw [hsplit.takeWhile, hsplit.dropWhile, List.append_assoc] at htake
      rw [hsplit.takeWhile] at hword
      have hrest : IsRest (' ' :: next) := h.suffix hsplit.isSuffix
      have hright := hsplit.column_lt h m
      have hborderNext : Cursor.atDocumentBorder
          ⟨next ++ behind, (m.after word).after spaces⟩ = false := by
        have hcolumnNe : ((m.after word).after spaces).column ≠ 0 := by omega
        simp [Cursor.atDocumentBorder, Cursor.atIndicator, hcolumnNe]
      have hshorter : next.length < fuel := by
        have hlength := hsplit.isSuffix.length_le
        rw [List.length_cons] at hlength
        omega
      obtain ⟨last, hread⟩ := ih hrest.tail hsplit.next_ne hsplit.next_head hrest.ne_comment
        (hsplit.getLast?_eq ▸ hlast) (by omega) hborderNext hshorter ⟨spaces, []⟩ (m.after word)
      refine ⟨last, ?_⟩
      rw [takeWords?_word hcommentBehind hborder gap stop hword hsplit htake
        (hsplit.not_atGap_next h behind) (by omega) hread, hsplit.eq_append, Mark.after_append,
        Mark.after_append]
      simp [Gap.folded]

end Words

end PlainScalar

/-! ### Whole texts -/

namespace IsPlain

open PlainScalar

variable {cs behind : List Char} {indent : Int} {after : Mark → Cursor} {broke : Bool} {m : Mark}

/-- A plain text is the rest of one. -/
theorem isRest (h : IsPlain cs) : IsRest cs := by
  refine ⟨h.line, ?_, h.inner⟩
  rintro rest rfl
  simpa [Style.startsLikePunctuation] using h.start

/-- A plain text starts with no indicator. -/
theorem head?_ne (h : IsPlain cs) {c : Char}
    (hc : c ∈ "#,[]\x7b\x7d&*!|>'\"%@\x60".toList) : cs.head? ≠ some c := by
  intro heq
  obtain ⟨cs, rfl⟩ := List.head?_eq_some_iff.1 heq
  have hstart := h.start
  rw [Style.startsLikePunctuation, List.contains_iff_mem.2 hc] at hstart
  cases hstart

/-- What may follow a text does not make a marker of it. -/
theorem not_atIndicator (h : IsPlain cs) (hend : IsEnd indent behind after broke) {c : Char}
    (hc : c = '-' ∨ c = '.') : Cursor.atIndicator c ⟨cs ++ behind, m⟩ = false := by
  have hborder := h.border
  have hbehind : behind.head? ≠ some c := by
    cases hend with
    | nil => nofun
    | colon | line => rcases hc with rfl | rfl <;> simp
  -- Three signs in a row could only be completed by what follows, which starts with neither sign.
  have hprefix : [c, c, c].isPrefixOf? (cs ++ behind) = none ∨ [c, c, c].isPrefixOf cs := by
    rcases cs with _ | ⟨x, _ | ⟨y, _ | ⟨z, cs⟩⟩⟩
    case cons.cons.cons =>
      simp [List.isPrefixOf?]
      tauto
    all_goals
      cases behind with
      | nil => simp [List.isPrefixOf?]
      | cons d rest =>
        have hd : c ≠ d := fun heq => hbehind (by rw [heq]; rfl)
        simp [List.isPrefixOf?, hd]
  rcases hprefix with hnone | hprefix
  · simp [Cursor.atIndicator, hnone]
  · rcases hc with rfl | rfl <;> simp [Style.startsLikeBorder, hprefix] at hborder

/-- **A text without quotes** is read as it was. -/
theorem exists_take?_eq (h : IsPlain cs) (hend : IsEnd indent behind after broke)
    (hcolumn : indent ≤ m.column) :
    ∃ last, take? false indent ⟨cs ++ behind, m⟩ = some ⟨cs, last, after (m.after cs), broke⟩ := by
  have hborder : Cursor.atDocumentBorder ⟨cs ++ behind, m⟩ = false := by
    rw [Cursor.atDocumentBorder, h.not_atIndicator hend (.inl rfl),
      h.not_atIndicator hend (.inr rfl)]
    rfl
  apply exists_takeWords?_eq h.isRest h.ne_nil h.head (h.head?_ne (by decide)) h.last hend hcolumn
    hborder
  rw [List.length_append]
  omega

end IsPlain

end MachineTuning.Yaml
