import MachineTuning.Proofs.Json.Scalar

namespace MachineTuning.Json

/-!
# JSON — what is written is read back

A value of texts, flags and integers of at most 64 bits is exact: its text spells nothing else.
Both layouts only add blanks, which the reader passes over.

* `value?_print` — an exact value is read from its text in any blank layout;
* `parse?_compact`, `parse?_pretty` — the texts of documents read back.
-/

/-- A value whose text spells nothing else: all its numbers are integers that 64 bits hold. -/
inductive IsExact : Json → Prop
  | null : IsExact .null
  | boolean (b : Bool) : IsExact (.boolean b)
  | integer {n : Int} (lower : -0x8000000000000000 ≤ n) (upper : n < 0x10000000000000000) :
      IsExact (.ofInt n)
  | text (s : String) : IsExact (.text s)
  | array {items : List Json} (h : ∀ item ∈ items, IsExact item) : IsExact (.array items)
  | object {members : List (String × Json)} (h : ∀ m ∈ members, IsExact m.2) :
      IsExact (.object members)

/-- A layout that adds nothing but blanks. -/
structure Layout.IsBlank (layout : Layout) : Prop where
  lineBreak : ∀ depth, ∀ c ∈ layout.lineBreak depth, Json.isBlank c
  afterColon : ∀ c ∈ layout.afterColon, Json.isBlank c

/-- Documents on one line hold no blanks at all. -/
theorem Layout.isBlank_compact : Layout.compact.IsBlank :=
  ⟨by simp [Layout.compact], by simp [Layout.compact]⟩

/-- Documents on many lines hold line breaks and spaces between their parts. -/
theorem Layout.isBlank_pretty : Layout.pretty.IsBlank := by
  refine ⟨fun depth c hc => ?_, by simp [Layout.pretty, Json.isBlank]⟩
  rcases List.mem_cons.1 hc with rfl | hc
  · decide
  · rw [List.eq_of_mem_replicate hc]
    decide

/-! ### Blanks -/

/-- Blanks in front are passed over. -/
theorem skipBlanks_append {blanks : List Char} (h : ∀ c ∈ blanks, isBlank c) (cs : List Char) :
    skipBlanks (blanks ++ cs) = skipBlanks cs :=
  List.dropWhile_append_of_pos h

/-- What is not blank is not passed over. -/
theorem skipBlanks_cons {c : Char} (h : isBlank c = false) (cs : List Char) :
    skipBlanks (c :: cs) = c :: cs := by
  rw [skipBlanks, List.dropWhile_cons, h]
  rfl

/-- There is nothing to pass over twice. -/
theorem skipBlanks_skipBlanks (cs : List Char) : skipBlanks (skipBlanks cs) = skipBlanks cs := by
  induction cs with
  | nil => rfl
  | cons c cs ih =>
    by_cases hc : isBlank c
    · have hskip : skipBlanks (c :: cs) = skipBlanks cs := List.dropWhile_cons_of_pos hc
      rw [hskip, ih]
    · have hc : isBlank c = false := by simpa using hc
      rw [skipBlanks_cons hc, skipBlanks_cons hc]

/-- A value is read behind blanks as without them. -/
theorem value?_skipBlanks (fuel : Nat) (cs : List Char) :
    value? fuel (skipBlanks cs) = value? fuel cs := by
  cases fuel with
  | zero => rfl
  | succ fuel => rw [value?, value?, skipBlanks_skipBlanks]

/-- Blanks in front of the end of a container do not continue a number. -/
theorem endsNumber_append {blanks : List Char} (hblanks : ∀ c ∈ blanks, isBlank c)
    {cs : List Char} (hcs : EndsNumber cs) : EndsNumber (blanks ++ cs) := by
  cases blanks with
  | nil => exact hcs
  | cons c blanks =>
    have hc : isBlank c := hblanks c List.mem_cons_self
    refine endsNumber_cons ?_ _
    simp only [isBlank, Bool.or_eq_true, decide_eq_true_eq] at hc
    rcases hc with ((rfl | rfl) | rfl) | rfl <;> decide

/-! ### Steps of the reader -/

section Steps

variable {fuel : Nat} {cs rest rest' : List Char}

/-- A text in front of others starts with a quote and ends at the next one. -/
theorem textChars_append (s : String) (cs : List Char) :
    textChars s ++ cs = '"' :: (s.toList.flatMap escapedChar ++ '"' :: cs) := by
  simp [textChars]

/-- A text is read as a value. -/
theorem value?_text (s : String) :
    value? (fuel + 1) (textChars s ++ rest) = some (.text s, rest) := by
  have htext := text?_textChars s rest
  rw [textChars_append, value?, skipBlanks_cons (by decide)]
  simp [htext]

/-- A value that starts with a digit is a number. -/
theorem value?_digit {c : Char} (hc : c.isDigit) :
    value? (fuel + 1) (c :: cs) = number? false (c :: cs) := by
  have hblank : isBlank c = false := by
    by_contra h
    simp only [isBlank, Bool.not_eq_false, Bool.or_eq_true, decide_eq_true_eq] at h
    rcases h with ((rfl | rfl) | rfl) | rfl <;> exact absurd hc (by decide)
  have hne (d : Char) (hd : d.isDigit = false) : c ≠ d := by
    rintro rfl
    rw [hd] at hc
    exact Bool.false_ne_true hc
  rw [value?, skipBlanks_cons hblank]
  simp [hne 'n' rfl, hne 't' rfl, hne 'f' rfl, hne '"' rfl, hne '[' rfl, hne '\x7b' rfl,
    hne '-' rfl]

/-- What ends a container is no value. -/
theorem value?_bracket : value? fuel (']' :: cs) = none := by
  cases fuel with
  | zero => rfl
  | succ fuel =>
    rw [value?, skipBlanks_cons (by decide)]
    simp [number?]

/-- What ends an object is no member. -/
theorem member?_brace : member? fuel ('\x7d' :: cs) = none := by
  cases fuel with
  | zero => rfl
  | succ fuel =>
    rw [member?, skipBlanks_cons (by decide)]
    rfl

/-- Blanks in front of a member do not matter. -/
theorem member?_skipBlanks : member? fuel (skipBlanks cs) = member? fuel cs := by
  cases fuel with
  | zero => rfl
  | succ fuel => rw [member?, member?, skipBlanks_skipBlanks]

/-- Empty brackets are an array without items. -/
theorem value?_array_nil : value? (fuel + 1) ('[' :: ']' :: rest) = some (.array [], rest) := by
  rw [value?, skipBlanks_cons (by decide)]
  simp [skipBlanks_cons (c := ']') (by decide)]

/-- An array is its first item and the others behind it. -/
theorem value?_array_cons {item : Json} {items : List Json}
    (hitem : value? fuel cs = some (item, rest)) (hitems : items? fuel rest = some (items, rest')) :
    value? (fuel + 1) ('[' :: cs) = some (.array (item :: items), rest') := by
  -- The reader looks for a bracket behind the blanks, and there is a value instead.
  rw [← value?_skipBlanks] at hitem
  rw [value?, skipBlanks_cons (by decide)]
  simp only [Char.reduceEq, if_false, if_true]
  split
  · next heq =>
    rw [heq, value?_bracket] at hitem
    cases hitem
  · simp [hitem, hitems]

/-- Empty braces are an object without members. -/
theorem value?_object_nil :
    value? (fuel + 1) ('\x7b' :: '\x7d' :: rest) = some (.object [], rest) := by
  rw [value?, skipBlanks_cons (by decide)]
  simp [skipBlanks_cons (c := '\x7d') (by decide)]

/-- An object is its first member and the others behind it. -/
theorem value?_object_cons {member : String × Json} {members : List (String × Json)}
    (hmember : member? fuel cs = some (member, rest))
    (hmembers : members? fuel rest = some (members, rest')) :
    value? (fuel + 1) ('\x7b' :: cs) = some (.object (member :: members), rest') := by
  -- As for arrays, a member in place of the closing brace.
  rw [← member?_skipBlanks] at hmember
  rw [value?, skipBlanks_cons (by decide)]
  simp only [Char.reduceEq, if_false, if_true]
  split
  · next heq =>
    rw [heq, member?_brace] at hmember
    cases hmember
  · simp [hmember, hmembers]

/-- A bracket behind blanks ends the items. -/
theorem items?_bracket {blanks : List Char} (h : ∀ c ∈ blanks, isBlank c) :
    items? (fuel + 1) (blanks ++ ']' :: rest) = some ([], rest) := by
  rw [items?, skipBlanks_append h, skipBlanks_cons (by decide)]
  rfl

/-- Behind a comma stand an item and the items that follow it. -/
theorem items?_comma {item : Json} {items : List Json} (hitem : value? fuel cs = some (item, rest))
    (hitems : items? fuel rest = some (items, rest')) :
    items? (fuel + 1) (',' :: cs) = some (item :: items, rest') := by
  rw [items?, skipBlanks_cons (by decide)]
  simp [hitem, hitems]

/-- A member is a text, a colon and a value. -/
theorem member?_text {blanks : List Char} (h : ∀ c ∈ blanks, isBlank c) {key : String} {v : Json}
    (hvalue : value? fuel cs = some (v, rest)) :
    member? (fuel + 1) (blanks ++ textChars key ++ ':' :: cs) = some ((key, v), rest) := by
  have htext := text?_textChars key (':' :: cs)
  rw [member?, List.append_assoc, skipBlanks_append h, textChars_append,
    skipBlanks_cons (by decide)]
  simp [List.isPrefixOf?, htext, skipBlanks_cons (c := ':') (by decide), hvalue]

/-- A brace behind blanks ends the members. -/
theorem members?_brace {blanks : List Char} (h : ∀ c ∈ blanks, isBlank c) :
    members? (fuel + 1) (blanks ++ '\x7d' :: rest) = some ([], rest) := by
  rw [members?, skipBlanks_append h, skipBlanks_cons (by decide)]
  rfl

/-- Behind a comma stand a member and the members that follow it. -/
theorem members?_comma {member : String × Json} {members : List (String × Json)}
    (hmember : member? fuel cs = some (member, rest))
    (hmembers : members? fuel rest = some (members, rest')) :
    members? (fuel + 1) (',' :: cs) = some (member :: members, rest') := by
  rw [members?, skipBlanks_cons (by decide)]
  simp [hmember, hmembers]

end Steps

/-! ### Values -/

section Values

variable {layout : Layout}

/-- A value is read from its text in this layout, with an allowance that its length bounds. -/
def ReadsBack (layout : Layout) (v : Json) : Prop :=
  ∀ fuel depth rest, 2 * (print layout depth v).length ≤ fuel → EndsNumber rest →
    value? fuel (print layout depth v ++ rest) = some (v, rest)

/-- Behind an item stands a comma or the end of the array, and either ends a number. -/
theorem endsNumber_printItems (hlayout : layout.IsBlank) (depth : Nat) (items : List Json)
    (rest : List Char) :
    EndsNumber
      (printItems layout (depth + 1) items ++ (layout.lineBreak depth ++ ']' :: rest)) := by
  cases items with
  | nil => exact endsNumber_append (hlayout.lineBreak depth) (endsNumber_cons (by decide) _)
  | cons item items => exact endsNumber_cons (by decide) _

/-- Behind a member stands a comma or the end of the object, and either ends a number. -/
theorem endsNumber_printMembers (hlayout : layout.IsBlank) (depth : Nat)
    (members : List (String × Json)) (rest : List Char) :
    EndsNumber
      (printMembers layout (depth + 1) members ++ (layout.lineBreak depth ++ '\x7d' :: rest)) := by
  cases members with
  | nil => exact endsNumber_append (hlayout.lineBreak depth) (endsNumber_cons (by decide) _)
  | cons member members => exact endsNumber_cons (by decide) _

/-- A value is read behind blanks, too. -/
theorem ReadsBack.behind {v : Json} (h : ReadsBack layout v) {fuel depth : Nat}
    {rest blanks : List Char} (hblanks : ∀ c ∈ blanks, isBlank c)
    (hfuel : 2 * (print layout depth v).length ≤ fuel) (hrest : EndsNumber rest) :
    value? fuel (blanks ++ (print layout depth v ++ rest)) = some (v, rest) := by
  rw [← value?_skipBlanks, skipBlanks_append hblanks, value?_skipBlanks]
  exact h fuel depth rest hfuel hrest

/-- Items that read back one by one read back in a row. -/
theorem items?_printItems (hlayout : layout.IsBlank) (depth : Nat) (rest : List Char)
    {items : List Json} (h : ∀ item ∈ items, ReadsBack layout item) {fuel : Nat}
    (hfuel : 2 * (printItems layout (depth + 1) items).length < fuel) :
    items? fuel (printItems layout (depth + 1) items ++ (layout.lineBreak depth ++ ']' :: rest)) =
      some (items, rest) := by
  induction items generalizing fuel with
  | nil =>
    obtain ⟨fuel, rfl⟩ := Nat.exists_eq_succ_of_ne_zero (Nat.ne_of_gt (Nat.zero_lt_of_lt hfuel))
    exact items?_bracket (hlayout.lineBreak depth)
  | cons item items ih =>
    obtain ⟨hitem, hitems⟩ := List.forall_mem_cons.1 h
    obtain ⟨fuel, rfl⟩ := Nat.exists_eq_succ_of_ne_zero (Nat.ne_of_gt (Nat.zero_lt_of_lt hfuel))
    -- The comma pays for the step that it takes.
    simp only [printItems, List.cons_append, List.length_cons, List.length_append] at hfuel
    simp only [printItems, List.cons_append, List.append_assoc]
    exact items?_comma
      (hitem.behind (hlayout.lineBreak _) (by omega)
        (endsNumber_printItems hlayout depth items rest))
      (ih hitems (by omega))

/-- A key and its value are read behind a line break. -/
theorem member?_print (hlayout : layout.IsBlank) {fuel : Nat} (depth : Nat) (key : String)
    {v : Json} (h : ReadsBack layout v) {rest : List Char}
    (hfuel : 2 * (print layout depth v).length < fuel) (hrest : EndsNumber rest) :
    member? fuel (layout.lineBreak depth ++ textChars key ++
      ':' :: (layout.afterColon ++ (print layout depth v ++ rest))) = some ((key, v), rest) := by
  obtain ⟨fuel, rfl⟩ := Nat.exists_eq_succ_of_ne_zero (Nat.ne_of_gt (Nat.zero_lt_of_lt hfuel))
  exact member?_text (hlayout.lineBreak depth)
    (h.behind hlayout.afterColon (Nat.le_of_lt_succ hfuel) hrest)

/-- Members whose values read back one by one read back in a row. -/
theorem members?_printMembers (hlayout : layout.IsBlank) (depth : Nat) (rest : List Char)
    {members : List (String × Json)} (h : ∀ m ∈ members, ReadsBack layout m.2) {fuel : Nat}
    (hfuel : 2 * (printMembers layout (depth + 1) members).length < fuel) :
    members? fuel
        (printMembers layout (depth + 1) members ++ (layout.lineBreak depth ++ '\x7d' :: rest)) =
      some (members, rest) := by
  induction members generalizing fuel with
  | nil =>
    obtain ⟨fuel, rfl⟩ := Nat.exists_eq_succ_of_ne_zero (Nat.ne_of_gt (Nat.zero_lt_of_lt hfuel))
    exact members?_brace (hlayout.lineBreak depth)
  | cons member members ih =>
    obtain ⟨key, v⟩ := member
    obtain ⟨(hmember : ReadsBack layout v), hmembers⟩ := List.forall_mem_cons.1 h
    obtain ⟨fuel, rfl⟩ := Nat.exists_eq_succ_of_ne_zero (Nat.ne_of_gt (Nat.zero_lt_of_lt hfuel))
    simp only [printMembers, List.cons_append, List.length_cons, List.length_append] at hfuel
    -- A member takes a step for itself and one for its value; its comma, key and colon pay for
    -- both.
    have hlength : 2 * (print layout (depth + 1) v).length < fuel := by omega
    have hread := member?_print hlayout (depth + 1) key hmember hlength
      (endsNumber_printMembers hlayout depth members rest)
    simp only [printMembers, List.cons_append, List.append_assoc] at hread ⊢
    exact members?_comma hread (ih hmembers (by omega))

/-- An array reads back if its items do. -/
theorem readsBack_array (hlayout : layout.IsBlank) {items : List Json}
    (h : ∀ item ∈ items, ReadsBack layout item) : ReadsBack layout (.array items) := by
  intro fuel depth rest hfuel hrest
  cases items with
  | nil =>
    have hfuel : 4 ≤ fuel := hfuel
    obtain ⟨fuel, rfl⟩ := Nat.exists_eq_add_of_le' (by omega : 1 ≤ fuel)
    exact value?_array_nil
  | cons item items =>
    obtain ⟨hitem, hitems⟩ := List.forall_mem_cons.1 h
    -- The two brackets pay for the step into the array and the one behind its last item.
    simp only [print, List.cons_append, List.length_cons, List.length_append] at hfuel
    obtain ⟨fuel, rfl⟩ := Nat.exists_eq_add_of_le' (by omega : 1 ≤ fuel)
    simp only [print, List.cons_append, List.append_assoc, List.nil_append]
    exact value?_array_cons
      (hitem.behind (hlayout.lineBreak _) (by omega)
        (endsNumber_printItems hlayout depth items rest))
      (items?_printItems hlayout depth rest hitems (by omega))

/-- An object reads back if the values of its members do. -/
theorem readsBack_object (hlayout : layout.IsBlank) {members : List (String × Json)}
    (h : ∀ m ∈ members, ReadsBack layout m.2) : ReadsBack layout (.object members) := by
  intro fuel depth rest hfuel hrest
  cases members with
  | nil =>
    have hfuel : 4 ≤ fuel := hfuel
    obtain ⟨fuel, rfl⟩ := Nat.exists_eq_add_of_le' (by omega : 1 ≤ fuel)
    exact value?_object_nil
  | cons member members =>
    obtain ⟨key, v⟩ := member
    obtain ⟨(hmember : ReadsBack layout v), hmembers⟩ := List.forall_mem_cons.1 h
    simp only [print, List.cons_append, List.length_cons, List.length_append] at hfuel
    obtain ⟨fuel, rfl⟩ := Nat.exists_eq_add_of_le' (by omega : 1 ≤ fuel)
    have hlength : 2 * (print layout (depth + 1) v).length < fuel := by omega
    have hread := member?_print hlayout (depth + 1) key hmember hlength
      (endsNumber_printMembers hlayout depth members rest)
    simp only [print, List.cons_append, List.append_assoc, List.nil_append] at hread ⊢
    exact value?_object_cons hread (members?_printMembers hlayout depth rest hmembers (by omega))

/-- What is not read in parts takes one step. -/
theorem readsBack_of_step {v : Json} (hne : ∀ depth, print layout depth v ≠ [])
    (hstep : ∀ fuel depth rest, EndsNumber rest →
      value? (fuel + 1) (print layout depth v ++ rest) = some (v, rest)) :
    ReadsBack layout v := by
  intro fuel depth rest hfuel hrest
  have hlength : 0 < (print layout depth v).length := List.length_pos_iff.2 (hne depth)
  obtain ⟨fuel, rfl⟩ := Nat.exists_eq_add_of_le' (by omega : 1 ≤ fuel)
  exact hstep fuel depth rest hrest

/-- Null reads back. -/
theorem readsBack_null : ReadsBack layout .null :=
  readsBack_of_step (fun _ => by simp [print]) fun fuel depth rest hrest => by
    show value? (fuel + 1) ('n' :: 'u' :: 'l' :: 'l' :: rest) = _
    rw [value?, skipBlanks_cons (by decide)]
    simp [List.isPrefixOf?]

/-- Truth values read back. -/
theorem readsBack_boolean (b : Bool) : ReadsBack layout (.boolean b) :=
  readsBack_of_step (fun _ => by cases b <;> simp [print]) fun fuel depth rest hrest => by
    cases b with
    | false =>
      show value? (fuel + 1) ('f' :: 'a' :: 'l' :: 's' :: 'e' :: rest) = _
      rw [value?, skipBlanks_cons (by decide)]
      simp [List.isPrefixOf?]
    | true =>
      show value? (fuel + 1) ('t' :: 'r' :: 'u' :: 'e' :: rest) = _
      rw [value?, skipBlanks_cons (by decide)]
      simp [List.isPrefixOf?]

/-- Texts read back. -/
theorem readsBack_text (s : String) : ReadsBack layout (.text s) :=
  readsBack_of_step (fun _ => by simp [print, textChars]) fun fuel depth rest hrest => by
    rw [print]
    exact value?_text s

/-- A number without a sign starts with a digit. -/
theorem value?_toDigits (fuel n : Nat) (rest : List Char) :
    value? (fuel + 1) (Nat.toDigits 10 n ++ rest) =
      number? false (Nat.toDigits 10 n ++ rest) := by
  obtain ⟨c, cs, heq⟩ := List.exists_cons_of_ne_nil (Nat.toDigits_ne_nil (n := n) (b := 10))
  have hc : c.isDigit :=
    Nat.isDigit_of_mem_toDigits (by decide) (by decide) (heq ▸ List.mem_cons_self)
  rw [heq, List.cons_append, value?_digit hc]

/-- A number without a sign reads back if 64 bits hold it. -/
theorem readsBack_ofNat {n : Nat} (h : n < 0x10000000000000000) : ReadsBack layout (.ofInt n) :=
  readsBack_of_step (fun _ => Nat.toDigits_ne_nil) fun fuel depth rest hrest => by
    show value? (fuel + 1) (Nat.toDigits 10 n ++ rest) = _
    have hinteger : integer? false (Nat.toDigits 10 n) = some (.ofInt n) := by
      simp only [integer?, decimalFrom_toDigits, Bool.false_eq_true, if_false, if_pos h]
    rw [value?_toDigits, number?_toDigits false n hrest, hinteger]
    rfl

/-- A negative number reads back if 64 bits with a sign hold it. -/
theorem readsBack_negSucc {n : Nat} (h : n < 0x8000000000000000) :
    ReadsBack layout (.ofInt (.negSucc n)) :=
  readsBack_of_step (fun _ => List.cons_ne_nil _ _) fun fuel depth rest hrest => by
    show value? (fuel + 1) ('-' :: (Nat.toDigits 10 (n + 1) ++ rest)) = _
    -- The digits are those of the magnitude, which of the least integer is still in the range.
    have hsmall : ¬(n + 1 = 0 ∨ 0x8000000000000000 < n + 1) := by omega
    have hinteger : integer? true (Nat.toDigits 10 (n + 1)) = some (.ofInt (.negSucc n)) := by
      simp only [integer?, decimalFrom_toDigits, if_true, if_neg hsmall]
      rfl
    have hread := number?_toDigits true (n + 1) hrest
    rw [hinteger] at hread
    rw [value?, skipBlanks_cons (by decide)]
    simp [hread]

/-- An integer reads back if 64 bits hold it, with or without a sign. -/
theorem readsBack_integer {n : Int} (lower : -0x8000000000000000 ≤ n)
    (upper : n < 0x10000000000000000) : ReadsBack layout (.ofInt n) := by
  cases n with
  | ofNat n => exact readsBack_ofNat (by simp only [Int.ofNat_eq_natCast] at upper; omega)
  | negSucc n => exact readsBack_negSucc (by omega)

/-- **Exact values read back.**  A value is read from its text, and what stands behind it is
    left. -/
theorem value?_print (hlayout : layout.IsBlank) {v : Json} (h : IsExact v) :
    ReadsBack layout v := by
  induction h with
  | null => exact readsBack_null
  | boolean b => exact readsBack_boolean b
  | integer lower upper => exact readsBack_integer lower upper
  | text s => exact readsBack_text s
  | array _ ih => exact readsBack_array hlayout ih
  | object _ ih => exact readsBack_object hlayout ih

end Values

/-! ### Documents -/

/-- A document in a blank layout is read as its value, with blanks behind it or not. -/
theorem parse?_print_append {layout : Layout} (hlayout : layout.IsBlank) {v : Json}
    (h : IsExact v) {blanks : List Char} (hblanks : ∀ c ∈ blanks, isBlank c) :
    parse? (String.ofList (print layout 0 v ++ blanks)) = some v := by
  have hends : EndsNumber blanks := by
    have happend := endsNumber_append hblanks endsNumber_nil
    rwa [List.append_nil] at happend
  have hskip : skipBlanks blanks = [] := by
    have happend := skipBlanks_append hblanks []
    rwa [List.append_nil] at happend
  -- The allowance of a document is twice its length and one more.
  have hread := value?_print hlayout h (2 * (print layout 0 v ++ blanks).length + 1) 0 blanks
    (by rw [List.length_append]; omega) hends
  rw [parse?, String.toList_ofList, String.length_ofList, hread]
  simp [hskip]

/-- A document in a blank layout is read as its value. -/
theorem parse?_print {layout : Layout} (hlayout : layout.IsBlank) {v : Json} (h : IsExact v) :
    parse? (String.ofList (print layout 0 v)) = some v := by
  have hread := parse?_print_append hlayout h (List.forall_mem_nil _)
  rwa [List.append_nil] at hread

/-- An exact value is read from its text on one line. -/
theorem parse?_compact {v : Json} (h : IsExact v) : parse? (compact v) = some v :=
  parse?_print Layout.isBlank_compact h

/-- An exact value is read from its text on many lines. -/
theorem parse?_pretty {v : Json} (h : IsExact v) : parse? (pretty v) = some v :=
  parse?_print Layout.isBlank_pretty h

/-- A document on lines of its own may end with further blanks, such as a line break. -/
theorem parse?_pretty_append {v : Json} (h : IsExact v) {blanks : String}
    (hblanks : ∀ c ∈ blanks.toList, isBlank c) : parse? (pretty v ++ blanks) = some v := by
  have hread := parse?_print_append Layout.isBlank_pretty h hblanks
  rwa [String.ofList_append, String.ofList_toList] at hread

end MachineTuning.Json
