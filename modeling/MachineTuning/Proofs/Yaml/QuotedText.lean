import Mathlib.Data.List.Chain
import Mathlib.Data.List.TakeWhile
import MachineTuning.Proofs.Json.Scalar
import MachineTuning.Proofs.Yaml.Cursor
import MachineTuning.Yaml.Token.QuotedScalar

namespace MachineTuning.Yaml

/-!
# Quoted texts — how YAML reads a text that JSON has written

JSON writes a text between double quotes and escapes quotes, backslashes and controls; YAML knows
these escapes.  But YAML folds lines, and takes three characters for line breaks that JSON writes as
they are: the next-line character and the two separators.

* `reread` — the text that YAML reads, if it reads one;
* `QuotedScalar.take?_textChars` — that it does, whatever follows the closing quote;
* `IsKept`, `reread_eq_some_self_iff` — the texts that are read as they are.
-/

/-! ### Gaps -/

/-- The characters of gaps that JSON writes as they are: the space, and the breaks beyond ASCII. -/
def isRawGap (c : Char) : Bool :=
  c = ' ' || c = '\u0085' || c = '\u2028' || c = '\u2029'

/-- The breaks that stand for themselves. -/
def isSeparator (c : Char) : Bool :=
  c = '\u2028' || c = '\u2029'

/-- A raw gap is made of spaces, next-line characters and separators. -/
theorem isRawGap_iff {c : Char} : isRawGap c ↔ c = ' ' ∨ c = '\u0085' ∨ isSeparator c := by
  simp [isRawGap, isSeparator, or_assoc]

/-- The characters of raw gaps, spelled out. -/
theorem isRawGap_iff_eq {c : Char} :
    isRawGap c ↔ c = ' ' ∨ c = '\u0085' ∨ c = '\u2028' ∨ c = '\u2029' := by
  simp [isRawGap, or_assoc]

/-- The separators, spelled out. -/
theorem isSeparator_iff {c : Char} : isSeparator c ↔ c = '\u2028' ∨ c = '\u2029' := by
  simp [isSeparator]

/-- A separator is a line break. -/
theorem isBreak_of_isSeparator {c : Char} (h : isSeparator c) : isBreak c := by
  rcases isSeparator_iff.1 h with rfl | rfl <;> rfl

/-- A separator is neither a space nor a next-line character. -/
theorem ne_of_isSeparator {c : Char} (h : isSeparator c) : c ≠ ' ' ∧ c ≠ '\u0085' := by
  constructor <;> rintro rfl <;> cases h

/-- A line break counts as a newline or as a separator. -/
theorem breakChar_eq_or (c : Char) : breakChar c = '\n' ∨ isSeparator (breakChar c) := by
  rw [breakChar]
  split
  · next h => exact .inr h
  · exact .inl rfl

/-- A separator counts as itself. -/
theorem breakChar_of_isSeparator {c : Char} (h : isSeparator c) : breakChar c = c :=
  if_pos h

/-- JSON does not escape the characters of raw gaps. -/
theorem escapedChar_of_isRawGap {c : Char} (h : isRawGap c) : Json.escapedChar c = [c] := by
  rcases isRawGap_iff_eq.1 h with rfl | rfl | rfl | rfl <;> rfl

/-- What a run of such characters is read as. -/
def Gap.ofRaw (gap : List Char) : Gap :=
  ⟨gap.takeWhile isBlank, (gap.filter isBreak).map breakChar⟩

/-- The start of a marker between documents: three dashes or three points in front of a gap. -/
def startsBorder (cs : List Char) : Bool :=
  ['-', '.'].any fun c => ([c, c, c].isPrefixOf? cs).any fun behind => behind.head?.any isRawGap

section Gaps

variable {gap rest : List Char}

/-- Behind the first break, the blanks of a gap count for nothing. -/
theorem Gap.takeBreaks?_raw (hgap : ∀ c ∈ gap, isRawGap c) (hrest : rest ≠ [] → atGap rest = false)
    (floor : Int) (m : Mark) :
    Gap.takeBreaks? floor (gap ++ rest) m =
      some ((gap.filter isBreak).map breakChar, ⟨rest, m.after gap⟩) := by
  induction gap generalizing m with
  | nil =>
    cases rest with
    | nil => rfl
    | cons c cs =>
      obtain ⟨hblank, hbreak⟩ : isBlank c = false ∧ isBreak c = false := by
        simpa [atGap] using hrest
      have hc : c ≠ '\r' := by
        rintro rfl
        cases hbreak
      rw [List.nil_append, takeBreaks?]
      · simp [hblank, hbreak, Mark.after]
      · rintro cs' rfl
        exact absurd rfl hc
  | cons c gap ih =>
    obtain ⟨hc, htail⟩ := List.forall_mem_cons.1 hgap
    -- A raw gap holds four characters only, and a carriage return, which would take the next one
    -- with it, is none of them.
    rcases isRawGap_iff_eq.1 hc with rfl | rfl | rfl | rfl <;>
      simp [takeBreaks?, isBreak, isBlank, Mark.after, ih htail]

/-- Blanks are taken up to what is none. -/
theorem takeWhile_go_blanks (hrest : rest ≠ [] → atGap rest = false) (m : Mark) :
    Cursor.takeWhile.go isBlank (gap ++ rest) m =
      (gap.takeWhile isBlank,
        ⟨gap.dropWhile isBlank ++ rest, m.after (gap.takeWhile isBlank)⟩) := by
  induction gap generalizing m with
  | nil =>
    cases rest with
    | nil => rfl
    | cons c cs =>
      have hblank : isBlank c = false := by
        have hgap := hrest (List.cons_ne_nil c cs)
        rw [atGap, Bool.or_eq_false_iff] at hgap
        exact hgap.1
      simp [Cursor.takeWhile.go, hblank, Mark.after]
  | cons c gap ih =>
    rw [List.cons_append, Cursor.takeWhile.go, List.takeWhile_cons, List.dropWhile_cons]
    -- A blank is no break, so that the reader stays on its line.
    cases hc : isBlank c with
    | false => rfl
    | true =>
      have hbreak : isBreak c = false := by
        simp only [isBlank, Bool.or_eq_true, decide_eq_true_eq] at hc
        rcases hc with rfl | rfl <;> rfl
      simp only [if_true, ih, Mark.after_cons_of_not_isBreak m hbreak]

/-- A gap is read up to the character behind it, or to the end of the text. -/
theorem Gap.take?_raw (hgap : ∀ c ∈ gap, isRawGap c) (hrest : rest ≠ [] → atGap rest = false)
    (floor : Int) (m : Mark) :
    Gap.take? floor ⟨gap ++ rest, m⟩ = some (Gap.ofRaw gap, ⟨rest, m.after gap⟩) := by
  -- The blanks at the start hold no break, so that all breaks stand behind them.
  have hblanks : (gap.takeWhile isBlank).filter isBreak = [] := by
    rw [List.filter_eq_nil_iff]
    intro c hc hbreak
    have hblank := List.mem_takeWhile_imp hc
    simp only [isBlank, Bool.or_eq_true, decide_eq_true_eq] at hblank
    rcases hblank with rfl | rfl <;> cases hbreak
  have hbreaks : (gap.dropWhile isBlank).filter isBreak = gap.filter isBreak := by
    have hsplit := List.takeWhile_append_dropWhile (p := isBlank) (l := gap)
    rw [← hsplit, List.filter_append, hblanks, List.nil_append, hsplit]
  have hdrop : ∀ c ∈ gap.dropWhile isBlank, isRawGap c := fun c hc =>
    hgap c ((List.dropWhile_sublist _).subset hc)
  rw [take?, Cursor.takeWhile, takeWhile_go_blanks hrest]
  simp only [takeBreaks?_raw hdrop hrest, hbreaks, ← Mark.after_append,
    List.takeWhile_append_dropWhile, Option.bind_eq_bind, Option.bind_some, Gap.ofRaw]

end Gaps

/-- A gap holds nothing but its characters. -/
theorem forall_mem_gap {c : Char} (hc : isRawGap c) (cs : List Char) :
    ∀ d ∈ c :: cs.takeWhile isRawGap, isRawGap d :=
  List.forall_mem_cons.2 ⟨hc, fun _ hd => List.mem_takeWhile_imp hd⟩

/-- Behind a gap stands no character of one. -/
theorem head?_dropWhile_gap (cs : List Char) :
    (cs.dropWhile isRawGap).head?.any isRawGap = false := by
  have hnot := List.head?_dropWhile_not isRawGap cs
  cases hhead : (cs.dropWhile isRawGap).head? with
  | none => rfl
  | some c =>
    rw [hhead] at hnot
    exact hnot

/-- Gaps are written as they are. -/
theorem flatMap_escapedChar_gap {c : Char} (hc : isRawGap c) (cs : List Char) :
    (c :: cs).flatMap Json.escapedChar =
      (c :: cs.takeWhile isRawGap) ++ (cs.dropWhile isRawGap).flatMap Json.escapedChar := by
  have hsplit : c :: cs = (c :: cs.takeWhile isRawGap) ++ cs.dropWhile isRawGap := by
    rw [List.cons_append, List.takeWhile_append_dropWhile]
  have hsingle (gap : List Char) (h : ∀ d ∈ gap, isRawGap d) :
      gap.flatMap Json.escapedChar = gap := by
    induction gap with
    | nil => rfl
    | cons d gap ih =>
      obtain ⟨hd, hgap⟩ := List.forall_mem_cons.1 h
      rw [List.flatMap_cons, escapedChar_of_isRawGap hd, ih hgap, List.singleton_append]
  rw [hsplit, List.flatMap_append, hsingle _ (forall_mem_gap hc cs)]

/-- What YAML reads where JSON has written these characters: gaps are folded, and a marker between
    documents must not stand behind a break. -/
def reread : List Char → Option (List Char)
  | [] => some []
  | c :: cs =>
    if isRawGap c then
      if (c :: cs.takeWhile isRawGap).getLast?.any isBreak ∧
          startsBorder (cs.dropWhile isRawGap) then none
      else (reread (cs.dropWhile isRawGap)).map
        ((Gap.ofRaw (c :: cs.takeWhile isRawGap)).folded ++ ·)
    else (reread cs).map (c :: ·)
termination_by cs => cs.length
decreasing_by
  · have hle := (List.dropWhile_sublist isRawGap (l := cs)).length_le
    simp only [List.length_cons]
    omega
  · simp

/-! ### Reading what JSON has written -/

section Steps

variable {fuel : Nat} {m : Mark} {rest : List Char}

open QuotedScalar (body? escape?)

/-- A quote ends the text. -/
theorem body?_quote : body? true (fuel + 1) ⟨'"' :: rest, m⟩ = some ([], ⟨rest, m.next '"'⟩) := by
  simp [body?, isBlank, isBreak, Cursor.skip]

/-- A character that is no gap, no quote and no backslash stands for itself. -/
theorem body?_plain {c : Char} (hblank : isBlank c = false) (hbreak : isBreak c = false)
    (hquote : c ≠ '"') (hslash : c ≠ '\\') :
    body? true (fuel + 1) ⟨c :: rest, m⟩ =
      (body? true fuel ⟨rest, m.next c⟩).map fun (text, cur) => (c :: text, cur) := by
  rw [body?]
  simp only [hblank, hbreak, hquote, hslash, Cursor.skip, Bool.false_eq_true, or_false, and_false,
    if_false, if_true]
  cases body? true fuel ⟨rest, m.next c⟩ <;> rfl

/-- An escape stands for one character. -/
theorem body?_escape {c d : Char} {escape : List Char}
    (hbreaks : ∀ e ∈ d :: escape, isBreak e = false)
    (hread : ∀ m : Mark,
      escape? ⟨d :: escape ++ rest, m⟩ = some (c, ⟨rest, m.after (d :: escape)⟩)) :
    body? true (fuel + 1) ⟨'\\' :: (d :: escape) ++ rest, m⟩ =
      (body? true fuel ⟨rest, m.after ('\\' :: d :: escape)⟩).map
        fun (text, cur) => (c :: text, cur) := by
  have htake (m : Mark) : Cursor.takeBreak? ⟨d :: escape ++ rest, m⟩ = none :=
    Cursor.takeBreak?_of_not_isBreak (hbreaks d List.mem_cons_self) _ _
  have hafter : m.after ('\\' :: d :: escape) = (m.next '\\').after (d :: escape) := rfl
  have hread := hread (m.next '\\')
  rw [hafter, List.cons_append, body?]
  simp only [isBlank, isBreak, Cursor.skip, htake, hread, Char.reduceEq, decide_false,
    Bool.or_self, Bool.false_eq_true, or_self, if_false, if_true, true_and, Option.bind_eq_bind,
    Option.bind_some]
  cases body? true fuel ⟨rest, (m.next '\\').after (d :: escape)⟩ <;> rfl

/-- The four digits of a control are read as its number. -/
theorem hexValue?_padded_hexadecimal :
    ∀ n < 0x20, (Text.padded 4 (Text.hexadecimal n)).length = 4 ∧
      Text.hexValue? (Text.padded 4 (Text.hexadecimal n)) = some n ∧
      ∀ d ∈ Text.padded 4 (Text.hexadecimal n), isBreak d = false := by
  decide

/-- A control is read from its escape. -/
theorem escape?_control {c : Char} (h : c.toNat < 0x20) :
    escape? ⟨'u' :: Text.padded 4 (Text.hexadecimal c.toNat) ++ rest, m⟩ =
      some (c, ⟨rest, m.after ('u' :: Text.padded 4 (Text.hexadecimal c.toNat))⟩) := by
  obtain ⟨hlength, hvalue, hbreaks⟩ := hexValue?_padded_hexadecimal c.toNat h
  generalize Text.padded 4 (Text.hexadecimal c.toNat) = digits at hlength hvalue hbreaks ⊢
  have hu : ∀ d ∈ 'u' :: digits, isBreak d = false := List.forall_mem_cons.2 ⟨rfl, hbreaks⟩
  have hskip := Cursor.skip_append hu rest m
  rw [List.length_cons, hlength] at hskip
  have htake : (digits ++ rest).take 4 = digits := by rw [← hlength, List.take_left]
  have hvalid : c.toNat.isValidChar := Or.inl (by omega)
  have hsimple : QuotedScalar.simpleEscape? 'u' = none := rfl
  have hwidth : QuotedScalar.escapeWidth? 'u' = some 4 := rfl
  rw [List.cons_append] at hskip ⊢
  simp [escape?, hsimple, hwidth, htake, hvalue, hlength, hvalid, hskip]

/-- JSON escapes all other blanks and breaks. -/
theorem not_isBlank_and_not_isBreak {c : Char} (hc : isRawGap c = false)
    (hletter : c ∉ Json.lettered) : isBlank c = false ∧ isBreak c = false := by
  simp only [isRawGap, Bool.or_eq_false_iff, decide_eq_false_iff_not] at hc
  simp only [Json.mem_lettered_iff, not_or] at hletter
  simp [isBlank, isBreak, hc, hletter]

/-- A character that is no gap is read from what JSON writes for it. -/
theorem body?_escapedChar {c : Char} (hc : isRawGap c = false) :
    body? true (fuel + 1) ⟨Json.escapedChar c ++ rest, m⟩ =
      (body? true fuel ⟨rest, m.after (Json.escapedChar c)⟩).map
        fun (text, cur) => (c :: text, cur) := by
  by_cases hletter : c ∈ Json.lettered
  · rcases Json.mem_lettered_iff.1 hletter with rfl | rfl | rfl | rfl | rfl | rfl | rfl <;>
      exact body?_escape (by decide) fun _ => rfl
  · rw [Json.escapedChar_of_not_mem hletter]
    split
    · next hcontrol =>
      obtain ⟨-, -, hbreaks⟩ := hexValue?_padded_hexadecimal c.toNat hcontrol
      exact body?_escape (List.forall_mem_cons.2 ⟨rfl, hbreaks⟩) fun _ => escape?_control hcontrol
    · obtain ⟨hblank, hbreak⟩ := not_isBlank_and_not_isBreak hc hletter
      simp only [Json.mem_lettered_iff, not_or] at hletter
      rw [List.singleton_append, body?_plain hblank hbreak hletter.1 hletter.2.1,
        Mark.after_cons_of_not_isBreak m hbreak, Mark.after]

/-- A text that JSON has written goes on with a gap where the text itself does. -/
theorem atGap_escaped (cs : List Char) :
    atGap (cs.flatMap Json.escapedChar ++ '"' :: rest) = cs.head?.any isRawGap := by
  cases cs with
  | nil => rfl
  | cons c cs =>
    rw [List.flatMap_cons, List.head?_cons, Option.any_some]
    cases hc : isRawGap c with
    | true =>
      rw [escapedChar_of_isRawGap hc]
      rcases isRawGap_iff.1 hc with rfl | rfl | hc
      · rfl
      · rfl
      · simp [atGap, isBreak_of_isSeparator hc]
    | false =>
      -- Blanks and breaks that are no raw gap are escaped by a letter, in front of which stands a
      -- backslash.
      by_cases hletter : c ∈ Json.lettered
      · rcases Json.mem_lettered_iff.1 hletter with rfl | rfl | rfl | rfl | rfl | rfl | rfl <;> rfl
      · rw [Json.escapedChar_of_not_mem hletter]
        split
        · rfl
        · obtain ⟨hblank, hbreak⟩ := not_isBlank_and_not_isBreak hc hletter
          simp [atGap, hblank, hbreak]

/-- Dashes and periods stand at the start of what is written exactly if they stand at the start of
    the text. -/
theorem isPrefixOf?_escaped {start : List Char} (hstart : ∀ c ∈ start, c = '-' ∨ c = '.')
    (cs : List Char) :
    start.isPrefixOf? (cs.flatMap Json.escapedChar ++ '"' :: rest) =
      (start.isPrefixOf? cs).map fun behind => behind.flatMap Json.escapedChar ++ '"' :: rest := by
  induction start generalizing cs with
  | nil => rfl
  | cons x start ih =>
    obtain ⟨hx, hstart⟩ := List.forall_mem_cons.1 hstart
    cases cs with
    | nil => rcases hx with rfl | rfl <;> rfl
    | cons c cs =>
      rw [List.flatMap_cons, List.append_assoc]
      by_cases hc : x = c
      · subst c
        have hself : Json.escapedChar x = [x] := by
          rcases hx with rfl | rfl <;> rfl
        rw [hself]
        simp [List.isPrefixOf?, ih hstart]
      · -- An escape starts with a backslash, which is neither sign.
        obtain ⟨d, ds, hd, hhead⟩ := Json.escapedChar_eq_cons c
        have hne : x ≠ d := by
          rcases hhead with rfl | rfl
          · exact hc
          · rcases hx with rfl | rfl <;> decide
        rw [hd]
        simp [List.isPrefixOf?, hc, hne]

/-- What is written looks like the border of a document where the text starts like one, at the start
    of a line. -/
theorem atDocumentBorder_escaped (cs : List Char) :
    Cursor.atDocumentBorder ⟨cs.flatMap Json.escapedChar ++ '"' :: rest, m⟩ =
      (m.column = 0 && startsBorder cs) := by
  have hmarker (c : Char) (hc : c = '-' ∨ c = '.') :
      Cursor.atIndicator c ⟨cs.flatMap Json.escapedChar ++ '"' :: rest, m⟩ =
        (m.column = 0 &&
          ([c, c, c].isPrefixOf? cs).any fun behind => behind.head?.any isRawGap) := by
    rw [Cursor.atIndicator, isPrefixOf?_escaped (by simpa using hc)]
    cases [c, c, c].isPrefixOf? cs with
    | none => rfl
    | some behind => simp only [Option.map_some, Option.any_some, atGap_escaped]
  rw [Cursor.atDocumentBorder, hmarker '-' (.inl rfl), hmarker '.' (.inr rfl), startsBorder]
  cases decide (m.column = 0) <;> simp

/-- A gap is read in one step, together with the check for a marker behind it. -/
theorem body?_raw {double : Bool} {gap behind : List Char} (hne : gap ≠ [])
    (hgap : ∀ c ∈ gap, isRawGap c) (hbehind : atGap behind = false) :
    body? double (fuel + 1) ⟨gap ++ behind, m⟩ =
      if Cursor.atDocumentBorder ⟨behind, m.after gap⟩ then none
      else (body? double fuel ⟨behind, m.after gap⟩).map
        fun (text, cur) => ((Gap.ofRaw gap).folded ++ text, cur) := by
  have htake := Gap.take?_raw hgap (fun _ => hbehind) 0 m
  obtain ⟨c, gap, rfl⟩ := List.exists_cons_of_ne_nil hne
  have hc : isBlank c ∨ isBreak c := by
    have hraw := hgap c List.mem_cons_self
    rcases isRawGap_iff_eq.1 hraw with rfl | rfl | rfl | rfl <;> decide
  rw [List.cons_append] at htake ⊢
  rw [body?]
  simp only [hc, if_true, htake, Option.bind_eq_bind, Option.bind_some]
  split
  · rfl
  · cases body? double fuel ⟨behind, m.after (c :: gap)⟩ <;> rfl

/-- Behind a gap, a marker in the text itself is refused. -/
theorem body?_gap {gap cs : List Char} (hne : gap ≠ []) (hgap : ∀ c ∈ gap, isRawGap c)
    (hcs : cs.head?.any isRawGap = false) :
    body? true (fuel + 1) ⟨gap ++ (cs.flatMap Json.escapedChar ++ '"' :: rest), m⟩ =
      if gap.getLast?.any isBreak ∧ startsBorder cs then none
      else (body? true fuel ⟨cs.flatMap Json.escapedChar ++ '"' :: rest, m.after gap⟩).map
        fun (text, cur) => ((Gap.ofRaw gap).folded ++ text, cur) := by
  have hbehind : atGap (cs.flatMap Json.escapedChar ++ '"' :: rest) = false := by
    rw [atGap_escaped, hcs]
  rw [body?_raw hne hgap hbehind, atDocumentBorder_escaped]
  simp only [Bool.and_eq_true, decide_eq_true_eq, Mark.column_after_eq_zero_iff m hne]

/-- The characters of a text are read up to the closing quote. -/
theorem body?_escaped {cs : List Char} (h : cs.length < fuel) (m : Mark) :
    body? true fuel ⟨cs.flatMap Json.escapedChar ++ '"' :: rest, m⟩ =
      (reread cs).map fun text =>
        (text, ⟨rest, (m.after (cs.flatMap Json.escapedChar)).next '"'⟩) := by
  -- The cases are those of the text as it is read again: its end, a gap in front of a document
  -- border, any other gap, and a character outside gaps.
  fun_induction reread cs generalizing fuel m with
  | case1 =>
    obtain ⟨fuel, rfl⟩ := Nat.exists_eq_succ_of_ne_zero (Nat.ne_of_gt h)
    exact body?_quote
  | case2 c cs hc hborder =>
    obtain ⟨fuel, rfl⟩ := Nat.exists_eq_succ_of_ne_zero (Nat.ne_of_gt (Nat.zero_lt_of_lt h))
    rw [flatMap_escapedChar_gap hc, List.append_assoc, body?_gap (List.cons_ne_nil _ _)
      (forall_mem_gap hc cs) (head?_dropWhile_gap cs), if_pos hborder, Option.map_none]
  | case3 c cs hc hborder ih =>
    obtain ⟨fuel, rfl⟩ := Nat.exists_eq_succ_of_ne_zero (Nat.ne_of_gt (Nat.zero_lt_of_lt h))
    have hlength : (cs.dropWhile isRawGap).length < fuel := by
      have hle := (List.dropWhile_sublist isRawGap (l := cs)).length_le
      rw [List.length_cons] at h
      omega
    rw [flatMap_escapedChar_gap hc, List.append_assoc, body?_gap (List.cons_ne_nil _ _)
      (forall_mem_gap hc cs) (head?_dropWhile_gap cs), if_neg hborder, ih hlength, Option.map_map,
      Option.map_map, Mark.after_append]
    rfl
  | case4 c cs hc ih =>
    obtain ⟨fuel, rfl⟩ := Nat.exists_eq_succ_of_ne_zero (Nat.ne_of_gt (Nat.zero_lt_of_lt h))
    rw [Bool.not_eq_true] at hc
    rw [List.length_cons, Nat.add_lt_add_iff_right] at h
    rw [List.flatMap_cons, List.append_assoc, body?_escapedChar hc, ih h, Option.map_map,
      Option.map_map, Mark.after_append]
    rfl

/-- **A text that JSON has written** is read by YAML with its gaps folded, whatever follows it. -/
theorem QuotedScalar.take?_textChars (s : String) (rest : List Char) (m : Mark) :
    QuotedScalar.take? true ⟨Json.textChars s ++ rest, m⟩ =
      (reread s.toList).map fun text => (text, ⟨rest, m.after (Json.textChars s)⟩) := by
  -- The reader allows a step for each character of the escaped text, which is no shorter.
  have hlength : s.toList.length < (Json.textChars s ++ rest).length + 1 := by
    have hle := Json.length_le_length_escaped s.toList
    simp only [Json.textChars, List.length_append, List.length_cons]
    omega
  have hafter : m.after (Json.textChars s) =
      ((m.next '"').after (s.toList.flatMap Json.escapedChar)).next '"' := by
    rw [Json.textChars, Mark.after_append, Mark.after_cons_of_not_isBreak m rfl]
    rfl
  have hstart : (Cursor.mk (Json.textChars s ++ rest) m).skip 1 =
      ⟨s.toList.flatMap Json.escapedChar ++ '"' :: rest, m.next '"'⟩ := by
    simp [Json.textChars, Cursor.skip]
  rw [take?, hstart, body?_escaped hlength, hafter]

end Steps

/-! ### Kept texts -/

/-- The texts that are read as they are: they have no next-line characters, no spaces beside
    separators, and no marker between documents behind one. -/
structure IsKept (cs : List Char) : Prop where
  nextLine : '\u0085' ∉ cs
  spaces : cs.IsChain fun a b => ¬(isSeparator a ∧ b = ' ') ∧ ¬(a = ' ' ∧ isSeparator b)
  borders : ∀ c rest, isSeparator c → c :: rest <:+ cs → startsBorder rest = false

/-- The empty text is kept. -/
theorem isKept_nil : IsKept [] where
  nextLine := by simp
  spaces := .nil
  borders _ _ _ h := by simp at h

/-- A text is kept exactly if the rest is and its first character does not spoil it. -/
theorem isKept_cons {c : Char} {cs : List Char} :
    IsKept (c :: cs) ↔ c ≠ '\u0085' ∧
      (∀ b ∈ cs.head?, ¬(isSeparator c ∧ b = ' ') ∧ ¬(c = ' ' ∧ isSeparator b)) ∧
      (isSeparator c → startsBorder cs = false) ∧ IsKept cs := by
  constructor
  · rintro ⟨hnext, hspaces, hborders⟩
    obtain ⟨hhead, hspaces⟩ := List.isChain_cons.1 hspaces
    obtain ⟨hc, hnext⟩ := not_or.1 (List.mem_cons.not.1 hnext)
    exact ⟨fun h => hc h.symm, hhead, fun h => hborders c cs h List.suffix_rfl, hnext, hspaces,
      fun d rest hd hsuffix => hborders d rest hd (hsuffix.trans (List.suffix_cons c cs))⟩
  · rintro ⟨hc, hhead, hborder, hnext, hspaces, hborders⟩
    refine ⟨?_, List.isChain_cons.2 ⟨hhead, hspaces⟩, fun d rest hd hsuffix => ?_⟩
    · exact List.mem_cons.not.2 (not_or.2 ⟨fun h => hc h.symm, hnext⟩)
    · rcases List.suffix_cons_iff.1 hsuffix with heq | hsuffix
      · obtain ⟨rfl, rfl⟩ := List.cons.inj heq
        exact hborder hd
      · exact hborders d rest hd hsuffix

/-- A character that is no gap does not matter. -/
theorem isKept_cons_of_not_isRawGap {c : Char} (h : isRawGap c = false) {cs : List Char} :
    IsKept (c :: cs) ↔ IsKept cs := by
  rw [Bool.eq_false_iff, ne_eq, isRawGap_iff, not_or, not_or] at h
  obtain ⟨hspace, hnext, hseparator⟩ := h
  rw [isKept_cons]
  simp [hspace, hnext, hseparator]

/-- A text without next-line characters and separators is kept. -/
theorem isKept_of_forall {cs : List Char} (h : ∀ c ∈ cs, c ≠ '\u0085' ∧ isSeparator c = false) :
    IsKept cs := by
  induction cs with
  | nil => exact isKept_nil
  | cons c cs ih =>
    obtain ⟨⟨hnext, hseparator⟩, htail⟩ := List.forall_mem_cons.1 h
    refine isKept_cons.2 ⟨hnext, fun b hb => ?_, fun hc => ?_, ih htail⟩
    · simp [hseparator, (htail b (List.mem_of_mem_head? hb)).2]
    · rw [hseparator] at hc
      cases hc

/-- A gap does not look like the border of a document. -/
theorem startsBorder_cons_of_isRawGap {c : Char} (h : isRawGap c) (cs : List Char) :
    startsBorder (c :: cs) = false := by
  rcases isRawGap_iff_eq.1 h with rfl | rfl | rfl | rfl <;> rfl

/-- A gap goes on being all spaces or all separators. -/
theorem isUniform_cons_iff {c d : Char} (hc : isRawGap c) (gap : List Char) :
    (c ≠ '\u0085' ∧ ¬(isSeparator c ∧ d = ' ') ∧ ¬(c = ' ' ∧ isSeparator d)) ∧
        ((∀ b ∈ d :: gap, b = ' ') ∨ ∀ b ∈ d :: gap, isSeparator b) ↔
      (∀ b ∈ c :: d :: gap, b = ' ') ∨ ∀ b ∈ c :: d :: gap, isSeparator b := by
  rw [List.forall_mem_cons (a := c), List.forall_mem_cons (a := c)]
  -- What the next character is decides which of the two the gap can be.
  constructor
  · rintro ⟨⟨hnext, hspace, hseparator⟩, hspaces | hseparators⟩
    · have hd := hspaces d List.mem_cons_self
      have hc : c = ' ' := (isRawGap_iff.1 hc).resolve_right
        (not_or.2 ⟨hnext, fun hc => hspace ⟨hc, hd⟩⟩)
      exact .inl ⟨hc, hspaces⟩
    · have hd := hseparators d List.mem_cons_self
      have hc : isSeparator c := ((isRawGap_iff.1 hc).resolve_left
        fun hc => hseparator ⟨hc, hd⟩).resolve_left hnext
      exact .inr ⟨hc, hseparators⟩
  · rintro (⟨rfl, hspaces⟩ | ⟨hc, hseparators⟩)
    · have hd : ¬isSeparator d := by
        rw [hspaces d List.mem_cons_self]
        decide
      exact ⟨⟨by decide, fun h => absurd h.1 (by decide), fun h => hd h.2⟩, .inl hspaces⟩
    · have hd := ne_of_isSeparator (hseparators d List.mem_cons_self)
      have hc := ne_of_isSeparator hc
      exact ⟨⟨hc.2, fun h => hd.1 h.2, fun h => hc.1 h.1⟩, .inr hseparators⟩

/-- A gap is kept if it is all spaces or all separators. -/
theorem isKept_gap_append {gap cs : List Char} (hne : gap ≠ []) (hgap : ∀ c ∈ gap, isRawGap c)
    (hcs : cs.head?.any isRawGap = false)
    (hborder : ¬(gap.getLast?.any isBreak ∧ startsBorder cs)) : IsKept (gap ++ cs) ↔
      ((∀ c ∈ gap, c = ' ') ∨ ∀ c ∈ gap, isSeparator c) ∧ IsKept cs := by
  induction gap with
  | nil => exact absurd rfl hne
  | cons c gap ih =>
    obtain ⟨hc, hgap⟩ := List.forall_mem_cons.1 hgap
    -- The last character of the gap meets the text behind it; the others meet the next one of the
    -- gap.
    cases gap with
    | nil =>
      have hhead : ∀ b ∈ cs.head?, b ≠ ' ' ∧ ¬isSeparator b := by
        intro b hb
        rw [hb, Option.any_some, Bool.eq_false_iff, ne_eq, isRawGap_iff, not_or, not_or] at hcs
        exact ⟨hcs.1, hcs.2.2⟩
      have hbehind : ∀ b ∈ cs.head?, ¬(isSeparator c ∧ b = ' ') ∧ ¬(c = ' ' ∧ isSeparator b) :=
        fun b hb => ⟨fun h => (hhead b hb).1 h.2, fun h => (hhead b hb).2 h.2⟩
      have hstarts : isSeparator c → startsBorder cs = false := by
        intro hc
        rw [← Bool.not_eq_true]
        exact fun hcs => hborder ⟨isBreak_of_isSeparator hc, hcs⟩
      have hkind : c ≠ '\u0085' ↔ c = ' ' ∨ isSeparator c := by
        rcases isRawGap_iff.1 hc with rfl | rfl | hc
        · decide
        · decide
        · exact iff_of_true (ne_of_isSeparator hc).2 (.inr hc)
      rw [List.singleton_append, isKept_cons, List.forall_mem_singleton, List.forall_mem_singleton,
        ← hkind]
      exact and_congr_right fun _ => ⟨fun h => h.2.2, fun h => ⟨hbehind, hstarts, h⟩⟩
    | cons d gap =>
      have hd : isRawGap d := hgap d List.mem_cons_self
      rw [List.cons_append, isKept_cons, ih (List.cons_ne_nil _ _) hgap (by simpa using hborder),
        List.cons_append, startsBorder_cons_of_isRawGap hd, ← isUniform_cons_iff hc]
      simp only [List.head?_cons, Option.mem_some_iff, forall_eq', implies_true, true_and,
        and_assoc]

/-- Folding does not make line breaks longer. -/
theorem Gap.foldedBreaks_length_le (breaks : List Char) :
    (foldedBreaks breaks).length ≤ breaks.length := by
  cases breaks with
  | nil => exact Nat.le_refl _
  | cons c breaks =>
    rw [foldedBreaks]
    split_ifs with hc hempty
    · simp
    · simp
    · exact Nat.le_refl _

/-- What a gap stands for is no longer than the gap. -/
theorem Gap.length_folded_ofRaw_le (gap : List Char) :
    (Gap.ofRaw gap).folded.length ≤ gap.length := by
  rw [folded, ofRaw]
  split_ifs
  · exact (List.takeWhile_sublist _).length_le
  · refine (foldedBreaks_length_le _).trans ?_
    rw [List.length_map]
    exact List.length_filter_le _ _

/-- A gap is folded to itself exactly if it is all spaces or all separators. -/
theorem Gap.folded_ofRaw_eq_self_iff {gap : List Char} (hgap : ∀ c ∈ gap, isRawGap c) :
    (Gap.ofRaw gap).folded = gap ↔ (∀ c ∈ gap, c = ' ') ∨ ∀ c ∈ gap, isSeparator c := by
  -- Folding never adds a break.
  have hcount : ((gap.filter isBreak).map breakChar).length ≤ gap.length := by
    rw [List.length_map]
    exact List.length_filter_le _ _
  constructor
  · intro heq
    rw [folded, ofRaw] at heq
    split_ifs at heq with hbreaks
    · refine .inl fun c hc => ?_
      have hblank := List.takeWhile_eq_self_iff.1 heq c hc
      rcases isRawGap_iff.1 (hgap c hc) with rfl | rfl | hsep
      · rfl
      · cases hblank
      · rcases isSeparator_iff.1 hsep with rfl | rfl <;> cases hblank
    · have hmem : ∀ c ∈ (gap.filter isBreak).map breakChar, c = '\n' ∨ isSeparator c := by
        intro c hc
        obtain ⟨d, -, rfl⟩ := List.mem_map.1 hc
        exact breakChar_eq_or d
      generalize (gap.filter isBreak).map breakChar = breaks at heq hbreaks hcount hmem
      cases breaks with
      | nil => exact absurd rfl hbreaks
      | cons b breaks =>
        rw [foldedBreaks] at heq
        split_ifs at heq with hb hempty
        · left
          simp [← heq]
        · -- A line feed is lost, and nothing comes in its place.
          rw [← heq, List.length_cons] at hcount
          omega
        · right
          intro c hc
          refine (hmem c (heq ▸ hc)).resolve_left ?_
          rintro rfl
          cases hgap '\n' hc
  · rintro (hspaces | hseparators)
    · have hblanks : gap.takeWhile isBlank = gap := by
        refine List.takeWhile_eq_self_iff.2 fun c hc => ?_
        rw [hspaces c hc]
        rfl
      have hbreaks : gap.filter isBreak = [] := by
        refine List.filter_eq_nil_iff.2 fun c hc => ?_
        rw [hspaces c hc]
        decide
      rw [folded, ofRaw, hblanks, hbreaks]
      rfl
    · have hbreaks : (gap.filter isBreak).map breakChar = gap := by
        rw [List.filter_eq_self.2 fun c hc => isBreak_of_isSeparator (hseparators c hc)]
        exact (List.map_congr_left fun c hc => breakChar_of_isSeparator (hseparators c hc)).trans
          (List.map_id _)
      rw [folded, ofRaw, hbreaks]
      cases gap with
      | nil => rfl
      | cons c gap =>
        have hc : c ≠ '\n' := by
          rintro rfl
          cases hseparators '\n' List.mem_cons_self
        rw [foldedBreaks, if_neg hc]
        rfl

/-- A text does not get longer when it is read. -/
theorem length_le_of_reread {cs ds : List Char} (h : reread cs = some ds) :
    ds.length ≤ cs.length := by
  fun_induction reread cs generalizing ds with
  | case1 =>
    cases h
    exact Nat.le_refl _
  | case2 => cases h
  | case3 c cs hc hborder ih =>
    obtain ⟨text, htext, rfl⟩ := Option.map_eq_some_iff.1 h
    have hgap := Gap.length_folded_ofRaw_le (c :: cs.takeWhile isRawGap)
    have hlength := congrArg List.length (List.takeWhile_append_dropWhile (p := isRawGap) (l := cs))
    have hle := ih htext
    rw [List.length_append] at hlength ⊢
    rw [List.length_cons] at hgap ⊢
    omega
  | case4 c cs hc ih =>
    obtain ⟨text, htext, rfl⟩ := Option.map_eq_some_iff.1 h
    exact Nat.succ_le_succ (ih htext)

/-- **A text is read as it is** if and only if it is kept. -/
theorem reread_eq_some_self_iff {cs : List Char} : reread cs = some cs ↔ IsKept cs := by
  fun_induction reread cs with
  | case1 => exact iff_of_true rfl isKept_nil
  | case2 c cs hc hborder =>
    refine iff_of_false nofun fun hkept => ?_
    obtain ⟨hlast, hstarts⟩ := hborder
    obtain ⟨gap, d, hgap⟩ := (List.eq_nil_or_concat' (c :: cs.takeWhile isRawGap)).resolve_left
      (List.cons_ne_nil _ _)
    have hd : isRawGap d := forall_mem_gap hc cs d (by rw [hgap]; simp)
    have hsplit : c :: cs = gap ++ d :: cs.dropWhile isRawGap := by
      rw [List.append_cons, ← hgap, List.cons_append, List.takeWhile_append_dropWhile]
    rw [hgap, List.getLast?_concat, Option.any_some] at hlast
    rcases isRawGap_iff.1 hd with rfl | rfl | hsep
    · cases hlast
    · exact hkept.nextLine (by rw [hsplit]; simp)
    · have hnot := hkept.borders d _ hsep ⟨gap, hsplit.symm⟩
      rw [hstarts] at hnot
      cases hnot
  | case3 c cs hc hborder ih =>
    have hsplit : c :: cs = (c :: cs.takeWhile isRawGap) ++ cs.dropWhile isRawGap := by
      rw [List.cons_append, List.takeWhile_append_dropWhile]
    conv_rhs => rw [hsplit]
    rw [isKept_gap_append (List.cons_ne_nil _ _) (forall_mem_gap hc cs) (head?_dropWhile_gap cs)
        hborder, ← Gap.folded_ofRaw_eq_self_iff (forall_mem_gap hc cs), ← ih,
      Option.map_eq_some_iff]
    constructor
    · rintro ⟨text, htext, heq⟩
      rw [hsplit] at heq
      -- Neither part gets longer, so that together they are the same only part by part.
      have hgap := Gap.length_folded_ofRaw_le (c :: cs.takeWhile isRawGap)
      have htail := length_le_of_reread htext
      have hlength := congrArg List.length heq
      rw [List.length_append, List.length_append] at hlength
      obtain ⟨hfolded, rfl⟩ := List.append_inj heq (by omega)
      exact ⟨hfolded, htext⟩
    · rintro ⟨hfolded, htext⟩
      exact ⟨_, htext, by rw [hfolded, ← hsplit]⟩
  | case4 c cs hc ih =>
    rw [isKept_cons_of_not_isRawGap (Bool.not_eq_true _ ▸ hc), ← ih, Option.map_eq_some_iff]
    simp

end MachineTuning.Yaml
