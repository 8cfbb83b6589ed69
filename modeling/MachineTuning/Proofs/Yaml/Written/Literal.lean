import MachineTuning.Proofs.Yaml.Written.Plain
import MachineTuning.Yaml.Token.BlockScalar

namespace MachineTuning.Yaml

/-!
# Literal texts — what YAML writes on lines of its own is read back

A text of several lines is written below a bar, its lines indented and its breaks as they are.  The
header says how deep the lines are indented where their own spaces could be mistaken for
indentation, and what becomes of the breaks at the end.

* `BlockScalar.exists_header?_eq` — the header is read;
* `BlockScalar.exists_emptyLines?_eq`, `BlockScalar.exists_lines?_eq` — so are the lines;
* `BlockScalar.exists_take?_eq` — what is written is read as it was.
-/

/-- A character that may stand on such lines: of blanks only the space, and of breaks those that
    stand for themselves. -/
def IsLiteral (c : Char) : Prop :=
  (isBlank c → c = ' ') ∧ (isBreak c → breakChar c = c ∧ c ≠ '\r')

open QuotedScalar (elim_getLast?_cons)

/-! ### What is written -/

/-- What is written from a place in a text on.  At the start of a line the indentation is pending,
    and the last line is ended if it has not. -/
def literalBody (indent : Nat) (pending : Bool) : List Char → List Char
  | [] => if pending then [] else ['\n']
  | c :: cs =>
    if isBreak c then c :: literalBody indent true cs
    else (if pending then indentation indent else []) ++ c :: literalBody indent false cs

section Written

variable {indent : Nat} {cs line : List Char}

/-- A literal with the end of its line is its hints, a newline and its lines. -/
theorem closeLine_literalChars (indent : Nat) (cs : List Char) :
    closeLine (literalChars indent cs) =
      '|' :: literalHints cs ++ '\n' :: literalBody indent true cs := by
  -- The line is ended where the last character, or the one before all, is a break.
  have hbody (pending : Bool) : indentLines.go indent pending cs ++
      (if cs.getLast?.elim pending isBreak then [] else ['\n']) =
        literalBody indent pending cs := by
    induction cs generalizing pending with
    | nil => cases pending <;> rfl
    | cons c cs ih =>
      rw [elim_getLast?_cons, literalBody]
      by_cases hbreak : isBreak c
      · rw [if_pos hbreak, ← ih]
        simp [indentLines.go, hbreak]
      · rw [if_neg hbreak, ← ih]
        cases pending <;> simp [indentLines.go, hbreak]
  have hend (pending : Bool) (d : Char) :
      (d :: indentLines.go indent pending cs).getLast?.any isBreak =
        cs.getLast?.elim (isBreak d) isBreak := by
    clear hbody
    induction cs generalizing pending d with
    | nil => rfl
    | cons c cs ih =>
      rw [elim_getLast?_cons, indentLines.go]
      by_cases hbreak : isBreak c
      · rw [if_pos hbreak, List.getLast?_cons_cons, ih]
      · rw [if_neg hbreak]
        cases pending with
        | true =>
          rw [if_pos rfl, ← List.cons_append,
            List.getLast?_append_of_ne_nil _ (List.cons_ne_nil _ _), ih]
        | false => rw [if_neg (by decide), List.getLast?_cons_cons, ih]
  have hclose : (literalChars indent cs).getLast?.any isBreak = cs.getLast?.elim true isBreak := by
    rw [literalChars, List.getLast?_append_of_ne_nil _ (List.cons_ne_nil _ _), hend]
    rfl
  rw [closeLine, hclose, ← hbody, literalChars]
  cases cs.getLast?.elim true isBreak <;> simp

/-- A line is written as it is. -/
theorem literalBody_append (hline : ∀ c ∈ line, isBreak c = false) :
    literalBody indent false (line ++ cs) = line ++ literalBody indent false cs := by
  induction line with
  | nil => rfl
  | cons c line ih =>
    obtain ⟨hc, hline⟩ := List.forall_mem_cons.1 hline
    rw [List.cons_append, literalBody, if_neg (by simp [hc]), ih hline]
    rfl

end Written

namespace BlockScalar

variable {cs tail : List Char} {m : Mark} {indent n : Nat}

/-! ### Headers -/

/-- What the header says about the breaks at the end of a text. -/
def chompingOf (cs : List Char) : Chomping :=
  match cs.reverse with
  | [] => .strip
  | [c] => if isBreak c then .keep else .strip
  | c :: d :: _ => if isBreak c then (if isBreak d then .keep else .clip) else .strip

/-- How it says so. -/
def chompingHint : Chomping → List Char
  | .strip => ['-']
  | .clip => []
  | .keep => ['+']

/-- Whether the first line of a text could be mistaken for a deeper one. -/
def startsOpen (cs : List Char) : Bool :=
  cs.head?.any fun c => c = ' ' || isBreak c

/-- The hints are the indentation, if the text starts open, and how it ends. -/
theorem literalHints_eq (cs : List Char) :
    literalHints cs = (if startsOpen cs then ['2'] else []) ++ chompingHint (chompingOf cs) := by
  unfold literalHints chompingOf
  generalize cs.reverse = backwards
  show (if startsOpen cs then ['2'] else []) ++ _ = _
  congr 1
  rcases backwards with _ | ⟨c, _ | ⟨d, _⟩⟩
  · rfl
  · show (if isBreak c then _ else _) = chompingHint (if isBreak c then _ else _)
    split <;> rfl
  · show (if isBreak c then (if isBreak d then _ else _) else _) =
      chompingHint (if isBreak c then (if isBreak d then _ else _) else _)
    split
    · split <;> rfl
    · rfl

/-- A header is read up to the first line below it. -/
theorem exists_header?_eq (chomping : Chomping) (hint : Bool) (rest : List Char) (m : Mark) :
    ∃ m', header? ⟨(if hint then ['2'] else []) ++ chompingHint chomping ++ '\n' :: rest, m⟩ =
      some (chomping, if hint then some 2 else none, ⟨rest, m'⟩) ∧ m'.column = 0 := by
  refine ⟨(m.after ((if hint then ['2'] else []) ++ chompingHint chomping)).nextLine 1, ?_, rfl⟩
  cases chomping <;> cases hint <;> rfl

/-! ### Indentation -/

/-- Indentation is passed over up to the limit. -/
theorem skipIndent_indentation {limit : Option Nat} {k : Nat}
    (hlimit : ∀ l ∈ limit, m.column + k ≤ l) (rest : List Char) :
    skipIndent limit (indentation k ++ rest) m =
      skipIndent limit rest (m.after (indentation k)) := by
  induction k generalizing m with
  | zero => rfl
  | succ k ih =>
    -- The limit is not reached before the last space.
    have hbelow : limit.all (m.column < ·) = true := by
      cases limit with
      | none => rfl
      | some l =>
        have hl := hlimit l rfl
        rw [Option.all_some, decide_eq_true_eq]
        omega
    have hnext : ∀ l ∈ limit, (m.next ' ').column + k ≤ l := fun l hl => by
      have hle := hlimit l hl
      rw [Mark.column_next]
      omega
    rw [indentation, List.replicate_succ, List.cons_append, skipIndent, if_pos hbelow]
    exact ih hnext

/-- At the limit, or in front of what is no space, nothing is passed over. -/
theorem skipIndent_eq_self {limit : Option Nat} {rest : List Char}
    (h : rest.head? ≠ some ' ' ∨ limit = some m.column) : skipIndent limit rest m = ⟨rest, m⟩ := by
  unfold skipIndent
  split
  · rcases h with h | rfl
    · exact absurd rfl h
    · simp
  · rfl

/-! ### Lines -/

/-- What stands behind a text: the next line, which is not indented as deep. -/
structure IsBelow (indent n : Nat) (tail : List Char) : Prop where
  lt : n < indent
  tail : tail ≠ [] → atGap tail = false

/-- What stands below starts with neither a blank nor a line break. -/
theorem IsBelow.head? (h : IsBelow indent n tail) {c : Char} (hc : isBlank c ∨ isBreak c) :
    tail.head? ≠ some c := by
  intro heq
  obtain ⟨rest, rfl⟩ := List.head?_eq_some_iff.1 heq
  have hgap := h.tail (List.cons_ne_nil c rest)
  rw [atGap, Bool.or_eq_false_iff] at hgap
  rcases hc with hc | hc
  · rw [hgap.1] at hc
    cases hc
  · rw [hgap.2] at hc
    cases hc

/-- No line break is taken from what stands below. -/
theorem IsBelow.takeBreak?_eq_none (h : IsBelow indent n tail) (m : Mark) :
    Cursor.takeBreak? ⟨tail, m⟩ = none := by
  cases tail with
  | nil => rfl
  | cons c rest =>
    apply Cursor.takeBreak?_of_not_isBreak
    rw [Bool.eq_false_iff]
    exact fun hbreak => h.head? (.inr hbreak) rfl

/-- At the start of a line, the indentation of the line below is passed over. -/
theorem emptyLines?_below (hbelow : IsBelow indent n tail) (hm : m.column = 0) (fuel : Nat) :
    emptyLines? (some indent) (fuel + 1) ⟨indentation n ++ tail, m⟩ =
      some ([], n, ⟨tail, m.after (indentation n)⟩) := by
  have hcolumn : (m.after (indentation n)).column = n := by
    rw [column_after_spaces, hm, Nat.zero_add]
  have hlimit : ∀ l ∈ some indent, m.column + n ≤ l := by
    rintro l ⟨⟩
    have hlt := hbelow.lt
    omega
  have hspace : tail.head? ≠ some ' ' := hbelow.head? (.inl rfl)
  have htab : tail.head? ≠ some '\t' := hbelow.head? (.inl rfl)
  rw [emptyLines?]
  simp [skipIndent_indentation hlimit, skipIndent_eq_self (.inl hspace), htab, hcolumn,
    hbelow.takeBreak?_eq_none]

/-- An empty line is a break more. -/
theorem emptyLines?_break {c : Char} (hc : IsLiteral c) (hbreak : isBreak c) (limit : Option Nat)
    (fuel : Nat) (rest : List Char) :
    emptyLines? limit (fuel + 1) ⟨c :: rest, m⟩ =
      (emptyLines? limit fuel ⟨rest, m.nextLine c.utf8Size⟩).map fun (breaks, widest, cur) =>
        (c :: breaks, max m.column widest, cur) := by
  obtain ⟨hself, hreturn⟩ := hc.2 hbreak
  have hspace : c ≠ ' ' := by rintro rfl; cases hbreak
  have htab : c ≠ '\t' := by rintro rfl; cases hbreak
  rw [emptyLines?]
  cases hread : emptyLines? limit fuel ⟨rest, m.nextLine c.utf8Size⟩ <;>
    simp [skipIndent_eq_self, hspace, htab, Cursor.takeBreak?_of_isBreak hbreak hreturn, hself,
      hread]

/-- The indentation of a line is passed over, however many spaces the line starts with itself. -/
theorem emptyLines?_indentation {c : Char} (hbreak : isBreak c = false) (hm : m.column = 0)
    (fuel : Nat) (rest : List Char) :
    emptyLines? (some indent) (fuel + 1) ⟨indentation indent ++ c :: rest, m⟩ =
      some ([], indent, ⟨c :: rest, m.after (indentation indent)⟩) := by
  have hcolumn : (m.after (indentation indent)).column = indent := by
    rw [column_after_spaces, hm, Nat.zero_add]
  have hlimit : ∀ l ∈ some indent, m.column + indent ≤ l := by
    rintro l ⟨⟩
    omega
  rw [emptyLines?]
  simp [skipIndent_indentation hlimit, skipIndent_eq_self, hcolumn,
    Cursor.takeBreak?_of_not_isBreak hbreak]

/-- The empty lines in front of what is left of a text are read, and the indentation of the line
    behind them: the next line of the text if there is one, and else the line below. -/
theorem exists_emptyLines?_eq (hcs : ∀ c ∈ cs, IsLiteral c) (hbelow : IsBelow indent n tail)
    (hm : m.column = 0) {fuel : Nat} (hfuel : cs.length < fuel) :
    ∃ widest m', emptyLines? (some indent) fuel
        ⟨literalBody indent true cs ++ (indentation n ++ tail), m⟩ =
      some (cs.takeWhile isBreak, widest,
        ⟨if cs.dropWhile isBreak = [] then tail
          else literalBody indent false (cs.dropWhile isBreak) ++ (indentation n ++ tail), m'⟩) ∧
      m'.column = if cs.dropWhile isBreak = [] then n else indent := by
  induction cs generalizing m fuel with
  | nil =>
    obtain ⟨fuel, rfl⟩ := Nat.exists_eq_succ_of_ne_zero (Nat.ne_of_gt hfuel)
    refine ⟨n, m.after (indentation n), emptyLines?_below hbelow hm fuel, ?_⟩
    rw [column_after_spaces, hm, Nat.zero_add]
    rfl
  | cons c cs ih =>
    obtain ⟨hc, hcs⟩ := List.forall_mem_cons.1 hcs
    obtain ⟨fuel, rfl⟩ := Nat.exists_eq_succ_of_ne_zero (Nat.ne_of_gt (Nat.zero_lt_of_lt hfuel))
    -- A break ends another empty line; any other character starts a line with something on it.
    by_cases hbreak : isBreak c
    · obtain ⟨widest, m', hread, hcolumn⟩ := ih (m := m.nextLine c.utf8Size) hcs rfl
        (Nat.lt_of_succ_lt_succ hfuel)
      rw [List.dropWhile_cons_of_pos hbreak, List.takeWhile_cons_of_pos hbreak]
      refine ⟨max m.column widest, m', ?_, hcolumn⟩
      rw [literalBody, if_pos hbreak, List.cons_append, emptyLines?_break hc hbreak, hread]
      rfl
    · have hbody : literalBody indent true (c :: cs) =
          indentation indent ++ c :: literalBody indent false cs := by
        simp [literalBody, hbreak]
      have hline : literalBody indent false (c :: cs) = c :: literalBody indent false cs := by
        simp [literalBody, hbreak]
      rw [List.dropWhile_cons_of_neg hbreak, List.takeWhile_cons_of_neg hbreak, hbody,
        List.append_assoc, List.cons_append, if_neg (List.cons_ne_nil c cs),
        if_neg (List.cons_ne_nil c cs), hline, List.cons_append]
      refine ⟨indent, m.after (indentation indent), ?_, ?_⟩
      · exact emptyLines?_indentation (by simpa using hbreak) hm fuel _
      · rw [column_after_spaces, hm, Nat.zero_add]

/-- The number of breaks at the end of a text. -/
def lastBreakCount (cs : List Char) : Nat :=
  (cs.reverse.takeWhile isBreak).length

/-- A way of chomping that leaves as many breaks as the text has at its end. -/
def Chomping.Fits (count : Nat) : Chomping → Prop
  | .strip => count = 0
  | .clip => count = 1
  | .keep => 0 < count

/-- The last line breaks of a text are those behind its last other character. -/
theorem lastBreakCount_append {front cs : List Char} (h : ∃ c ∈ cs, isBreak c = false) :
    lastBreakCount (front ++ cs) = lastBreakCount cs := by
  have hnot : ¬(cs.reverse.takeWhile isBreak).length = cs.reverse.length := by
    intro hlength
    have hself := (List.takeWhile_prefix isBreak (l := cs.reverse)).eq_of_length hlength
    obtain ⟨c, hc, hbreak⟩ := h
    rw [← List.mem_reverse, ← hself] at hc
    have hyes := List.mem_takeWhile_imp hc
    rw [hbreak] at hyes
    cases hyes
  rw [lastBreakCount, List.reverse_append, List.takeWhile_append, if_neg hnot, lastBreakCount]

/-- Behind the breaks in front stands what is no break. -/
theorem head?_dropWhile_isBreak (h : cs.dropWhile isBreak ≠ []) :
    (cs.dropWhile isBreak).head?.any fun c => !isBreak c := by
  have hnot := List.head?_dropWhile_not isBreak cs
  cases hdrop : cs.dropWhile isBreak with
  | nil => exact absurd hdrop h
  | cons c rest =>
    rw [hdrop] at hnot
    simpa using hnot

/-- Line breaks in front do not count among the last ones. -/
theorem lastBreakCount_dropWhile (front : List Char) (h : cs.dropWhile isBreak ≠ []) :
    lastBreakCount (front ++ cs) = lastBreakCount (cs.dropWhile isBreak) := by
  obtain ⟨c, hc, hbreak⟩ := (Option.any_eq_true _ _).1 (head?_dropWhile_isBreak h)
  have hsplit : front ++ cs = front ++ cs.takeWhile isBreak ++ cs.dropWhile isBreak := by simp
  rw [hsplit]
  exact lastBreakCount_append ⟨c, List.mem_of_mem_head? hc, by simpa using hbreak⟩

/-- Behind a line all line breaks count. -/
theorem lastBreakCount_line {line breaks : List Char} (hline : ∀ c ∈ line, isBreak c = false)
    (hbreaks : ∀ c ∈ breaks, isBreak c) : lastBreakCount (line ++ breaks) = breaks.length := by
  have hfirst : line.reverse.takeWhile isBreak = [] := by
    cases hreverse : line.reverse with
    | nil => rfl
    | cons c rest =>
      have hc : isBreak c = false := hline c (by
        rw [← List.mem_reverse, hreverse]
        exact List.mem_cons_self)
      rw [List.takeWhile_cons_of_neg (by simp [hc])]
  have hall : breaks.reverse.takeWhile isBreak = breaks.reverse :=
    List.takeWhile_eq_self_iff.2 fun c hc => hbreaks c (List.mem_reverse.1 hc)
  rw [lastBreakCount, List.reverse_append, List.takeWhile_append, hall, if_pos rfl, hfirst,
    List.append_nil, List.length_reverse]

/-- The header says what fits, and that all breaks stay where there is nothing else. -/
theorem fits_chompingOf (cs : List Char) : (chompingOf cs).Fits (lastBreakCount cs) := by
  unfold chompingOf lastBreakCount
  generalize cs.reverse = backwards
  rcases backwards with _ | ⟨c, _ | ⟨d, backwards⟩⟩
  · rfl
  · show Chomping.Fits _ (if isBreak c then .keep else .strip)
    split <;> simp_all [Chomping.Fits]
  · show Chomping.Fits _ (if isBreak c then (if isBreak d then .keep else .clip) else .strip)
    split
    · split <;> simp_all [Chomping.Fits]
    · simp_all [Chomping.Fits]

/-- A text of line breaks alone is kept with all of them. -/
theorem chompingOf_of_forall (hne : cs ≠ []) (h : ∀ c ∈ cs, isBreak c) : chompingOf cs = .keep := by
  have hreverse : ∀ c ∈ cs.reverse, isBreak c := fun c hc => h c (List.mem_reverse.1 hc)
  have hreverseNe : cs.reverse ≠ [] := by simpa using hne
  unfold chompingOf
  generalize cs.reverse = backwards at hreverse hreverseNe
  rcases backwards with _ | ⟨c, _ | ⟨d, backwards⟩⟩
  · exact absurd rfl hreverseNe
  · exact if_pos (hreverse c List.mem_cons_self)
  · show (if isBreak c then (if isBreak d then .keep else .clip) else _) = Chomping.keep
    rw [if_pos (hreverse c List.mem_cons_self),
      if_pos (hreverse d (List.mem_cons_of_mem c List.mem_cons_self))]

/-- What fits leaves the breaks at the end as they are. -/
theorem Chomping.Fits.lastBreaks_eq {chomping : Chomping} {c : Char} {breaks : List Char}
    (h : chomping.Fits (c :: breaks).length) : lastBreaks [c] breaks chomping = c :: breaks := by
  cases chomping with
  | strip => cases h
  | clip =>
    have hlength : breaks.length + 1 = 1 := h
    obtain rfl : breaks = [] := List.eq_nil_of_length_eq_zero (by omega)
    rfl
  | keep => rfl

/-- A line of the text is read, and the break behind it. -/
theorem lines?_line {line rest : List Char} {c : Char} (hne : line ≠ [])
    (hline : ∀ c ∈ line, isBreak c = false) (hc : IsLiteral c) (hbreak : isBreak c)
    (hm : m.column = indent) {chomping : Chomping} {fuel : Nat} {pending breaks : List Char}
    {blank : Bool} :
    lines? false chomping indent (fuel + 1) pending blank breaks ⟨line ++ c :: rest, m⟩ =
      (emptyLines? (some indent) fuel ⟨rest, (m.after line).nextLine c.utf8Size⟩).bind
        fun (nextBreaks, _, cur) =>
          (lines? false chomping indent fuel [c] ((line ++ c :: rest).head?.any isBlank) nextBreaks
            cur).map fun (text, cur) => (pending ++ breaks ++ line ++ text, cur) := by
  obtain ⟨hself, hreturn⟩ := hc.2 hbreak
  have htake : Cursor.takeWhile (fun c => !isBreak c) ⟨line ++ c :: rest, m⟩ =
      (line, ⟨c :: rest, m.after line⟩) :=
    Cursor.takeWhile_append (fun d hd => by simp [hline d hd]) (by simp [hbreak]) m
  rw [lines?]
  simp [hne, hm, htake, Cursor.takeBreak?_of_isBreak hbreak hreturn, hself, joint]
  congr 1
  funext x
  rw [Option.map_eq_bind]
  rfl

/-- In front of the line below, the text is over. -/
theorem lines?_below (hbelow : IsBelow indent n tail) (hm : m.column = n) {folds : Bool}
    {chomping : Chomping} {fuel : Nat} {pending breaks : List Char} {blank : Bool} :
    lines? folds chomping indent (fuel + 1) pending blank breaks ⟨tail, m⟩ =
      some (lastBreaks pending breaks chomping, ⟨tail, m⟩) := by
  have hcolumn : m.column ≠ indent := by
    rw [hm]
    exact Nat.ne_of_lt hbelow.lt
  rw [lines?, if_pos (.inr hcolumn)]

/-- The first line of a text and what is behind it. -/
theorem exists_line_append (hfirst : cs.head?.any fun c => !isBreak c) :
    ∃ line behind, cs = line ++ behind ∧ line ≠ [] ∧ (∀ c ∈ line, isBreak c = false) ∧
      ∀ c ∈ behind.head?, isBreak c := by
  refine ⟨cs.takeWhile fun c => !isBreak c, cs.dropWhile fun c => !isBreak c,
    List.takeWhile_append_dropWhile.symm, ?_, ?_, ?_⟩
  · cases cs with
    | nil => cases hfirst
    | cons c cs =>
      have hc : (!isBreak c) = true := hfirst
      simp [hc]
  · intro c hc
    simpa using List.mem_takeWhile_imp hc
  · intro c hc
    have hnot := List.head?_dropWhile_not (fun c => !isBreak c) cs
    rw [hc] at hnot
    simpa using hnot

/-- A text of one line is ended, and its break is dropped again. -/
theorem exists_lines?_unended {line : List Char} (hne : line ≠ [])
    (hline : ∀ c ∈ line, isBreak c = false) {chomping : Chomping}
    (hfits : chomping.Fits (lastBreakCount (line ++ []))) (hbelow : IsBelow indent n tail)
    (hm : m.column = indent) {fuel : Nat} (hfuel : 0 < fuel) (pending : List Char) (blank : Bool)
    (breaks : List Char) :
    ∃ m', lines? false chomping indent (fuel + 1) pending blank breaks
        ⟨line ++ '\n' :: (indentation n ++ tail), m⟩ =
      some (pending ++ breaks ++ line, ⟨tail, m'⟩) ∧ m'.column = n := by
  obtain ⟨fuel, rfl⟩ := Nat.exists_eq_succ_of_ne_zero (Nat.ne_of_gt hfuel)
  have hnothing : ∀ c ∈ ([] : List Char), IsLiteral c ∧ isBreak c := by simp
  obtain ⟨widest, m', hempty, hcolumn⟩ := exists_emptyLines?_eq (fun c hc => (hnothing c hc).1)
    hbelow (m := (m.after line).nextLine '\n'.utf8Size) rfl (Nat.succ_pos fuel)
  -- No break is in the text, and only stripping drops the one that is written.
  have hstrip : chomping = .strip := by
    rw [lastBreakCount_line hline fun c hc => (hnothing c hc).2] at hfits
    cases chomping with
    | strip => rfl
    | clip => cases hfits
    | keep => cases hfits
  have hread : emptyLines? (some indent) (fuel + 1)
      ⟨indentation n ++ tail, (m.after line).nextLine '\n'.utf8Size⟩ =
      some ([], widest, ⟨tail, m'⟩) := hempty
  have hnewline : IsLiteral '\n' := ⟨by decide, by decide⟩
  refine ⟨m', ?_, hcolumn⟩
  rw [lines?_line hne hline hnewline (by decide) hm, hread]
  simp [lines?_below hbelow hcolumn, hstrip, lastBreaks]

/-- Behind empty lines, the text is read to its end.  If they are all that is left, their breaks
    must be those that stay (`hends`), and else the lines behind them must be read (`hread`). -/
theorem exists_lines?_of_emptyLines? {rest pending : List Char} {chomping : Chomping} {blank : Bool}
    {fuel : Nat} (hbelow : IsBelow indent n tail) (hfuel : 0 < fuel)
    (hm : m.column = if rest.dropWhile isBreak = [] then n else indent)
    (hends : (∀ c ∈ rest, isBreak c) → lastBreaks pending rest chomping = pending ++ rest)
    (hread : rest.dropWhile isBreak ≠ [] → m.column = indent →
      ∃ m', lines? false chomping indent fuel pending blank (rest.takeWhile isBreak)
          ⟨literalBody indent false (rest.dropWhile isBreak) ++ (indentation n ++ tail), m⟩ =
        some (pending ++ rest.takeWhile isBreak ++ rest.dropWhile isBreak, ⟨tail, m'⟩) ∧
        m'.column = n) :
    ∃ m', lines? false chomping indent fuel pending blank (rest.takeWhile isBreak)
        ⟨if rest.dropWhile isBreak = [] then tail
          else literalBody indent false (rest.dropWhile isBreak) ++ (indentation n ++ tail), m⟩ =
      some (pending ++ rest, ⟨tail, m'⟩) ∧ m'.column = n := by
  -- Nothing but breaks may be left, and then they are the last ones.
  by_cases hlast : rest.dropWhile isBreak = []
  · have hall : ∀ c ∈ rest, isBreak c := by simpa using hlast
    have hself : rest.takeWhile isBreak = rest := List.takeWhile_eq_self_iff.2 hall
    obtain ⟨fuel, rfl⟩ := Nat.exists_eq_succ_of_ne_zero (Nat.ne_of_gt hfuel)
    rw [if_pos hlast] at hm
    refine ⟨m, ?_, hm⟩
    rw [if_pos hlast, hself, lines?_below hbelow hm, hends hall]
  · rw [if_neg hlast] at hm
    obtain ⟨m', hlines, hcolumn⟩ := hread hlast hm
    refine ⟨m', ?_, hcolumn⟩
    rw [if_neg hlast, hlines, List.append_assoc, List.takeWhile_append_dropWhile]

/-- Behind its first line breaks a literal text is literal. -/
theorem isLiteral_of_mem_dropWhile (hcs : ∀ c ∈ cs, IsLiteral c) :
    ∀ c ∈ cs.dropWhile isBreak, IsLiteral c := fun c hc =>
  hcs c ((List.dropWhile_suffix isBreak).subset hc)

/-- The lines of a text are read up to the line below. -/
theorem exists_lines?_eq (hcs : ∀ c ∈ cs, IsLiteral c) (hfirst : cs.head?.any fun c => !isBreak c)
    {chomping : Chomping} (hfits : chomping.Fits (lastBreakCount cs))
    (hbelow : IsBelow indent n tail) (hm : m.column = indent) {fuel : Nat}
    (hfuel : cs.length < fuel) (pending : List Char) (blank : Bool) (breaks : List Char) :
    ∃ m', lines? false chomping indent fuel pending blank breaks
        ⟨literalBody indent false cs ++ (indentation n ++ tail), m⟩ =
      some (pending ++ breaks ++ cs, ⟨tail, m'⟩) ∧ m'.column = n := by
  induction fuel generalizing cs m pending blank breaks with
  | zero => cases hfuel
  | succ fuel ih =>
    -- The text is cut behind its first line, and the induction goes on behind the breaks that
    -- follow it.
    obtain ⟨line, behind, rfl, hne, hline, hbehind⟩ := exists_line_append hfirst
    have hlength := List.length_pos_iff.2 hne
    rw [List.length_append] at hfuel
    rw [literalBody_append hline]
    cases behind with
    | nil =>
      simpa [literalBody] using
        exists_lines?_unended hne hline hfits hbelow hm (by omega) pending blank breaks
    | cons c rest =>
      have hbreak : isBreak c := hbehind c rfl
      obtain ⟨-, hrest⟩ := List.forall_mem_append.1 hcs
      obtain ⟨hc, hrest⟩ := List.forall_mem_cons.1 hrest
      rw [List.length_cons] at hfuel
      obtain ⟨widest, m', hempty, hcolumn⟩ := exists_emptyLines?_eq hrest hbelow
        (m := (m.after line).nextLine c.utf8Size) rfl (show rest.length < fuel by omega)
      have hwritten : line ++ literalBody indent false (c :: rest) ++ (indentation n ++ tail) =
          line ++ c :: (literalBody indent true rest ++ (indentation n ++ tail)) := by
        simp [literalBody, hbreak]
      have hends : (∀ d ∈ rest, isBreak d) → lastBreaks [c] rest chomping = [c] ++ rest := by
        intro hall
        rw [lastBreakCount_line hline (List.forall_mem_cons.2 ⟨hbreak, hall⟩)] at hfits
        exact hfits.lastBreaks_eq
      have hlt : (rest.dropWhile isBreak).length < fuel := by
        have hle := (List.dropWhile_suffix isBreak (l := rest)).length_le
        omega
      have hread (hlast : rest.dropWhile isBreak ≠ []) (hm' : m'.column = indent) :=
        have hfits' : chomping.Fits (lastBreakCount (rest.dropWhile isBreak)) := by
          rw [← lastBreakCount_dropWhile (line ++ [c]) hlast]
          simpa using hfits
        ih (isLiteral_of_mem_dropWhile hrest) (head?_dropWhile_isBreak hlast) hfits' hm' hlt [c]
          ((line ++ c :: (literalBody indent true rest ++ (indentation n ++ tail))).head?.any
            isBlank)
          (rest.takeWhile isBreak)
      obtain ⟨m'', hlines, hcolumn'⟩ :=
        exists_lines?_of_emptyLines? hbelow (by omega) hcolumn hends hread
      refine ⟨m'', ?_, hcolumn'⟩
      rw [hwritten, lines?_line hne hline hc hbreak hm, hempty]
      show (lines? false chomping indent fuel [c] _ _ _).map _ = _
      rw [hlines]
      simp

/-! ### Whole texts -/

/-- Behind its first empty lines, a text is read to its end. -/
theorem exists_lines?_chompingOf (hcs : ∀ c ∈ cs, IsLiteral c) (hne : cs ≠ [])
    (hbelow : IsBelow indent n tail) {fuel : Nat} (hfuel : cs.length < fuel)
    (hm : m.column = if cs.dropWhile isBreak = [] then n else indent) :
    ∃ m', lines? false (chompingOf cs) indent fuel [] false (cs.takeWhile isBreak)
        ⟨if cs.dropWhile isBreak = [] then tail
          else literalBody indent false (cs.dropWhile isBreak) ++ (indentation n ++ tail), m⟩ =
      some (cs, ⟨tail, m'⟩) ∧ m'.column = n := by
  apply exists_lines?_of_emptyLines? hbelow (Nat.zero_lt_of_lt hfuel) hm
  · -- There are no other lines, and all the breaks stay.
    intro hall
    rw [chompingOf_of_forall hne hall]
    rfl
  · intro hlast hm
    have hlt : (cs.dropWhile isBreak).length < fuel := by
      have hle := (List.dropWhile_suffix isBreak (l := cs)).length_le
      omega
    have hfits : (chompingOf cs).Fits (lastBreakCount (cs.dropWhile isBreak)) := by
      rw [← lastBreakCount_dropWhile [] hlast]
      exact fits_chompingOf cs
    exact exists_lines?_eq (isLiteral_of_mem_dropWhile hcs) (head?_dropWhile_isBreak hlast) hfits
      hbelow hm hlt [] false (cs.takeWhile isBreak)

/-- Without a hint the first line shows how deep the lines are indented. -/
theorem exists_emptyLines?_none (hstart : startsOpen cs = false) (hne : cs ≠ [])
    (hcs : ∀ c ∈ cs, IsLiteral c) (hm : m.column = 0) (fuel : Nat) :
    ∃ m', emptyLines? none (fuel + 1) ⟨literalBody indent true cs ++ tail, m⟩ =
      some ([], indent, ⟨literalBody indent false cs ++ tail, m'⟩) ∧ m'.column = indent := by
  cases cs with
  | nil => exact absurd rfl hne
  | cons c cs =>
    obtain ⟨hspace, hbreak⟩ : c ≠ ' ' ∧ isBreak c = false := by simpa [startsOpen] using hstart
    have htab : c ≠ '\t' := by
      rintro rfl
      exact hspace ((hcs '\t' List.mem_cons_self).1 rfl)
    have hcolumn : (m.after (indentation indent)).column = indent := by
      rw [column_after_spaces, hm, Nat.zero_add]
    have hbody : literalBody indent true (c :: cs) =
        indentation indent ++ literalBody indent false (c :: cs) := by
      simp [literalBody, hbreak]
    refine ⟨m.after (indentation indent), ?_, hcolumn⟩
    rw [hbody, List.append_assoc, emptyLines?]
    simp [skipIndent_indentation, skipIndent_eq_self, hcolumn, literalBody, hbreak, hspace, htab,
      Cursor.takeBreak?_of_not_isBreak hbreak]

/-- A text that does not start open starts with a character on its first line. -/
theorem head?_of_startsOpen (hne : cs ≠ []) (hstart : startsOpen cs = false) :
    cs.head?.any fun c => !isBreak c := by
  cases cs with
  | nil => exact absurd rfl hne
  | cons c cs =>
    obtain ⟨-, hbreak⟩ : c ≠ ' ' ∧ isBreak c = false := by simpa [startsOpen] using hstart
    simpa using hbreak

/-- The lines of a text are no shorter than the text. -/
theorem length_le_length_literalBody (indent : Nat) (pending : Bool) (cs : List Char) :
    cs.length ≤ (literalBody indent pending cs).length := by
  induction cs generalizing pending with
  | nil => exact Nat.zero_le _
  | cons c cs ih =>
    have htrue := ih true
    have hfalse := ih false
    rw [literalBody]
    split
    · simpa using htrue
    · rw [List.length_append, List.length_cons, List.length_cons]
      omega

/-- A literal is its header, the empty lines behind it and the other lines. -/
theorem take?_eq {c : Char} {rest : List Char} {chomping : Chomping} {increment : Option Nat}
    {first : Cursor} (hheader : header? ⟨rest, m.next c⟩ = some (chomping, increment, first))
    {breaks : List Char} {widest : Nat} {cur : Cursor} {k : Nat}
    (hempty : emptyLines? (increment.map (k + ·)) (rest.length + 3) first =
      some (breaks, widest, cur)) :
    take? false k ⟨c :: rest, m⟩ =
      lines? false chomping ((increment.map (k + ·)).getD (max widest (k + 1))) (rest.length + 3)
        [] false breaks cur := by
  have hlimit : (fun n => (max (k : Int) 0).toNat + n) = (k + ·) := by
    funext n
    omega
  have hleast : max ((k : Int) + 1).toNat 1 = k + 1 := by omega
  simp only [take?, Cursor.skip, hheader, hlimit, hleast, Option.bind_eq_bind, Option.bind_some,
    List.length_cons, hempty]

/-- What is written on lines of its own is read as it was. -/
theorem exists_take?_eq (hcs : ∀ c ∈ cs, IsLiteral c) (hne : cs ≠ []) {k : Nat} (hn : n ≤ k)
    (htail : tail ≠ [] → atGap tail = false) (m : Mark) :
    ∃ m', take? false k
        ⟨closeLine (literalChars (k + 2) cs) ++ (indentation n ++ tail), m⟩ =
      some (cs, ⟨tail, m'⟩) ∧ m'.column = n := by
  have hbelow : IsBelow (k + 2) n tail := ⟨by omega, htail⟩
  obtain ⟨m₁, hheader, hm₁⟩ := exists_header?_eq (chompingOf cs) (startsOpen cs)
    (literalBody (k + 2) true cs ++ (indentation n ++ tail)) (m.next '|')
  have hwritten : closeLine (literalChars (k + 2) cs) ++ (indentation n ++ tail) =
      '|' :: ((if startsOpen cs then ['2'] else []) ++ chompingHint (chompingOf cs) ++
        '\n' :: (literalBody (k + 2) true cs ++ (indentation n ++ tail))) := by
    rw [closeLine_literalChars, literalHints_eq]
    simp
  rw [hwritten]
  generalize hbelowBar : _ ++ '\n' :: (literalBody (k + 2) true cs ++ _) = rest at hheader ⊢
  -- Each character that is written takes one step at most.
  have hfuel : cs.length < rest.length + 3 := by
    have hlength := length_le_length_literalBody (k + 2) true cs
    rw [← hbelowBar]
    simp only [List.length_cons, List.length_append]
    omega
  -- A text that starts with a space or a break says how far it is indented; otherwise the reader
  -- finds out from the first line.
  cases hstart : startsOpen cs with
  | true =>
    rw [hstart, if_pos rfl] at hheader
    obtain ⟨widest, m₂, hempty, hm₂⟩ := exists_emptyLines?_eq hcs hbelow hm₁ hfuel
    rw [take?_eq hheader hempty]
    exact exists_lines?_chompingOf hcs hne hbelow hfuel hm₂
  | false =>
    rw [hstart, if_neg (by decide)] at hheader
    obtain ⟨m₂, hempty, hm₂⟩ := exists_emptyLines?_none hstart hne hcs hm₁ (rest.length + 2)
    have hindent : (Option.map (k + ·) none).getD (max (k + 2) (k + 1)) = k + 2 :=
      Nat.max_eq_left (Nat.le_succ (k + 1))
    rw [take?_eq hheader hempty, hindent]
    exact exists_lines?_eq hcs (head?_of_startsOpen hne hstart) (fits_chompingOf cs) hbelow hm₂
      hfuel [] false []

end BlockScalar

end MachineTuning.Yaml
