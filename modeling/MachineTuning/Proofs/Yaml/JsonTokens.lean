import MachineTuning.Proofs.Json.Texts
import MachineTuning.Proofs.Yaml.Scanner

namespace MachineTuning.Yaml

/-!
# JSON texts as YAML tokens

A JSON text without blanks falls into YAML tokens along its own punctuation, and only its texts can
stop that.  `tokenKinds?` says which tokens a value becomes and `ofChars?_print_object` that the
scanner finds them.  A key that does not fit as one leaves no token that says it is a key.
-/

/-! ### The tokens of a value -/

/-- What stands between curly brackets, with them. -/
def mappingKinds (kinds : List TokenKind) : List TokenKind :=
  .flowMappingStart :: kinds ++ [.flowMappingEnd]

/-- What stands between square brackets, with them. -/
def sequenceKinds (kinds : List TokenKind) : List TokenKind :=
  .flowSequenceStart :: kinds ++ [.flowSequenceEnd]

/-- Tokens one behind the other, if both are there. -/
def joined (kinds? kinds'? : Option (List TokenKind)) : Option (List TokenKind) :=
  kinds?.bind fun kinds => kinds'?.map (kinds ++ ·)

/-- The kinds of the tokens of a key and its colon. -/
def keyKinds? (key : String) : Option (List TokenKind) :=
  (reread key.toList).map (Scanner.keyKinds key)

mutual
/-- The kinds of the tokens that a value's text falls into, if it does. -/
def tokenKinds? : Json → Option (List TokenKind)
  | .null => some [.scalar .plain "null".toList]
  | .boolean b => some [.scalar .plain (if b then "true" else "false").toList]
  | .number n => some [.scalar .plain (Json.numberChars n)]
  | .text s => (reread s.toList).map fun read => [.scalar .doubleQuoted read]
  | .array [] => some (sequenceKinds [])
  | .array (item :: items) =>
    (joined (tokenKinds? item) (itemKinds? items)).map sequenceKinds
  | .object [] => some (mappingKinds [])
  | .object ((key, value) :: members) =>
    (joined (joined (keyKinds? key) (tokenKinds? value)) (memberKinds? members)).map mappingKinds

/-- The same for the items behind the first, each after a comma. -/
def itemKinds? : List Json → Option (List TokenKind)
  | [] => some []
  | item :: items => joined ((tokenKinds? item).map (.flowEntry :: ·)) (itemKinds? items)

/-- The same for the members behind the first, each after a comma. -/
def memberKinds? : List (String × Json) → Option (List TokenKind)
  | [] => some []
  | (key, value) :: members =>
    joined ((joined (keyKinds? key) (tokenKinds? value)).map (.flowEntry :: ·))
      (memberKinds? members)
end

/-! ### Scanning parts of a text -/

open Scanner

/-- Inside so many brackets, a text in front of punctuation falls into these tokens or into none.
    It may have to start where a key is allowed. -/
def Scans (atKey : Bool) (depth : Nat) (text : List Char) (kinds? : Option (List TokenKind)) :
    Prop :=
  ∀ cs m before, cs.head?.any isFlowIndicator →
    Leads text.length
      (fun s => s.IsAt (text ++ cs) m before depth ∧ (atKey = true → s.keyAllowed = true))
      (kinds?.map fun kinds => IsAt cs (m.after text) (before ++ kinds) depth)

section Scans

variable {atKey : Bool} {depth : Nat} {text text' : List Char}
  {kinds? kinds'? : Option (List TokenKind)}

/-- A text that leads to its tokens, wherever it stands, falls into them. -/
theorem Scans.of_leads
    (h : ∀ cs m before, cs.head?.any isFlowIndicator →
      Leads text.length (IsAt (text ++ cs) m before depth)
        (kinds?.map fun kinds => IsAt cs (m.after text) (before ++ kinds) depth)) :
    Scans atKey depth text kinds? :=
  fun cs m before hcs => (h cs m before hcs).of_imp fun _ hs => hs.1

/-- A text that needs no key to be allowed falls into its tokens where one is. -/
theorem Scans.toKey (h : Scans false depth text kinds?) : Scans true depth text kinds? :=
  fun cs m before hcs => (h cs m before hcs).of_imp fun _ hs => ⟨hs.1, nofun⟩

/-- The empty text has no tokens. -/
theorem scans_nil : Scans atKey depth [] (some []) := by
  refine .of_leads fun cs m before _ => ?_
  rw [Option.map_some, List.append_nil]
  exact Leads.refl

/-- Two texts one behind the other, of which the second is empty or starts with punctuation. -/
theorem Scans.append (h : Scans atKey depth text kinds?) (h' : Scans false depth text' kinds'?)
    (htext' : ∀ cs : List Char, cs.head?.any isFlowIndicator →
      (text' ++ cs).head?.any isFlowIndicator) :
    Scans atKey depth (text ++ text') (joined kinds? kinds'?) := by
  intro cs m before hcs
  have hfirst := h (text' ++ cs) m before (htext' cs hcs)
  rw [List.append_assoc, List.length_append]
  cases kinds? with
  | none => exact hfirst.mono (by omega)
  | some kinds =>
    have hsecond := (h' cs (m.after text) (before ++ kinds) hcs).of_imp
      fun s (hs : s.IsAt (text' ++ cs) (m.after text) (before ++ kinds) depth) => ⟨hs, nofun⟩
    have hboth := hfirst.trans hsecond
    rw [Mark.after_append]
    cases kinds'? with
    | none => exact hboth
    | some kinds' =>
      simpa only [joined, Option.bind_some, Option.map_some, List.append_assoc] using hboth

/-- A text behind a comma. -/
theorem Scans.comma (h : Scans true depth text kinds?) :
    Scans false depth (',' :: text) (kinds?.map (.flowEntry :: ·)) := by
  refine .of_leads fun cs m before hcs => ?_
  have hboth := leads_flowEntry.trans
    ((h cs (m.next ',') (before ++ [.flowEntry]) hcs).of_imp fun _ hs => ⟨hs.1, fun _ => hs.2⟩)
  rw [List.length_cons, Nat.add_comm, Mark.after_cons_of_not_isBreak m rfl]
  cases kinds? with
  | none => exact hboth
  | some kinds =>
    simp only [Option.map_some, List.append_assoc] at hboth ⊢
    exact hboth

/-- A value behind its key. -/
theorem Scans.member (h : Scans false (depth + 1) text kinds?) (key : String) :
    Scans true (depth + 1) (Json.textChars key ++ ':' :: text) (joined (keyKinds? key) kinds?) := by
  intro cs m before hcs
  have hkey : Leads 2
      (fun s => s.IsAt (Json.textChars key ++ ':' :: text ++ cs) m before (depth + 1) ∧
        (true = true → s.keyAllowed = true))
      ((reread key.toList).map fun read =>
        IsAt (text ++ cs) ((m.after (Json.textChars key)).next ':') (before ++ keyKinds key read)
          (depth + 1)) := by
    rw [List.append_assoc]
    exact leads_key.of_imp fun _ hs => ⟨hs.1, hs.2 rfl⟩
  have hlength : 2 + text.length ≤ (Json.textChars key ++ ':' :: text).length := by
    simp only [Json.textChars, List.length_append, List.length_cons]
    omega
  rw [keyKinds?]
  -- A key that is refused ends the scan, whatever its value is.
  cases hread : reread key.toList with
  | none =>
    rw [hread] at hkey
    exact hkey.mono (by omega)
  | some read =>
    rw [hread] at hkey
    have hboth := hkey.trans ((h cs _ _ hcs).of_imp fun _ hs => ⟨hs, by simp⟩)
    rw [Mark.after_append, Mark.after_cons_of_not_isBreak _ rfl]
    cases kinds? with
    | none => exact hboth.mono hlength
    | some kinds =>
      simp only [joined, Option.map_some, Option.bind_some, List.append_assoc] at hboth ⊢
      exact hboth.mono hlength

/-- A text in brackets. -/
theorem leads_brackets {first last : Char} {start stop : TokenKind} {cs : List Char} {m : Mark}
    {before : List TokenKind}
    (hstart : first = '[' ∧ start = .flowSequenceStart ∨ first = '\x7b' ∧ start = .flowMappingStart)
    (hstop : last = ']' ∧ stop = .flowSequenceEnd ∨ last = '\x7d' ∧ stop = .flowMappingEnd)
    (h : Scans true (depth + 1) text kinds?) :
    Leads (first :: text ++ [last]).length (IsAt (first :: text ++ [last] ++ cs) m before depth)
      ((kinds?.map fun kinds => start :: kinds ++ [stop]).map fun kinds =>
        IsAt cs (m.after (first :: text ++ [last])) (before ++ kinds) depth) := by
  -- Brackets and braces are alike to the scanner: neither breaks a line, and the closing one is
  -- punctuation that ends the scalar before it.
  have hfirst : isBreak first = false := by
    rcases hstart with ⟨rfl, -⟩ | ⟨rfl, -⟩ <;> rfl
  have hlast : isBreak last = false := by
    rcases hstop with ⟨rfl, -⟩ | ⟨rfl, -⟩ <;> rfl
  have hhead : (last :: cs).head?.any isFlowIndicator := by
    rcases hstop with ⟨rfl, -⟩ | ⟨rfl, -⟩ <;> rfl
  have hinside := (leads_openFlow hstart).trans
    ((h (last :: cs) (m.next first) (before ++ [start]) hhead).of_imp
      fun _ hs => ⟨hs.1, fun _ => hs.2⟩)
  have hafter : m.after (first :: text ++ [last]) = ((m.next first).after text).next last := by
    rw [Mark.after_append, Mark.after_cons_of_not_isBreak m hfirst,
      Mark.after_cons_of_not_isBreak _ hlast, Mark.after]
  have hlength : (first :: text ++ [last]).length = 1 + text.length + 1 := by
    simp only [List.length_append, List.length_cons, List.length_nil]
    omega
  rw [hafter, hlength, List.append_assoc, List.singleton_append]
  cases kinds? with
  | none => exact hinside.mono (by omega)
  | some kinds =>
    have hall := hinside.trans (leads_closeFlow hstop)
    simp only [Option.map_some, List.append_assoc] at hall ⊢
    exact hall

end Scans

/-! ### Scanning values -/

open Json (IsExact)

section Values

/-- A value falls into its tokens, wherever it stands in brackets. -/
def ScansValue (v : Json) : Prop :=
  ∀ level depth, Scans false (depth + 1) (Json.print .compact level v) (tokenKinds? v)

/-- Further items start with punctuation if what follows them does. -/
theorem head?_printItems_append (level : Nat) (items : List Json) {cs : List Char}
    (h : cs.head?.any isFlowIndicator) :
    (Json.printItems .compact level items ++ cs).head?.any isFlowIndicator := by
  cases items with
  | nil => exact h
  | cons => rfl

/-- Further members start with punctuation if what follows them does. -/
theorem head?_printMembers_append (level : Nat) (members : List (String × Json)) {cs : List Char}
    (h : cs.head?.any isFlowIndicator) :
    (Json.printMembers .compact level members ++ cs).head?.any isFlowIndicator := by
  cases members with
  | nil => exact h
  | cons => rfl

/-- Further items fall into their tokens if each item does. -/
theorem scans_printItems {items : List Json} (h : ∀ v ∈ items, ScansValue v) (level depth : Nat) :
    Scans false (depth + 1) (Json.printItems .compact level items) (itemKinds? items) := by
  induction items with
  | nil => exact scans_nil
  | cons item items ih =>
    obtain ⟨hitem, hitems⟩ := List.forall_mem_cons.1 h
    rw [Json.printItems_compact_cons, itemKinds?]
    exact (hitem level depth).toKey.comma.append (ih hitems)
      fun _ => head?_printItems_append level items

/-- Further members fall into their tokens if each value does. -/
theorem scans_printMembers {members : List (String × Json)} (h : ∀ m ∈ members, ScansValue m.2)
    (level depth : Nat) :
    Scans false (depth + 1) (Json.printMembers .compact level members) (memberKinds? members) := by
  induction members with
  | nil => exact scans_nil
  | cons member members ih =>
    obtain ⟨hmember, hmembers⟩ := List.forall_mem_cons.1 h
    obtain ⟨key, value⟩ := member
    rw [Json.printMembers_compact_cons, memberKinds?]
    exact ((hmember level depth).member key).comma.append (ih hmembers)
      fun _ => head?_printMembers_append level members

/-- An object is scanned wherever its members are, in front of anything. -/
theorem leads_object {members : List (String × Json)} (h : ∀ m ∈ members, ScansValue m.2)
    (level depth : Nat) (cs : List Char) (m : Mark) (before : List TokenKind) :
    Leads (Json.print .compact level (.object members)).length
      (IsAt (Json.print .compact level (.object members) ++ cs) m before depth)
      ((tokenKinds? (.object members)).map fun kinds =>
        IsAt cs (m.after (Json.print .compact level (.object members))) (before ++ kinds)
          depth) := by
  cases members with
  | nil => exact leads_brackets (.inr ⟨rfl, rfl⟩) (.inr ⟨rfl, rfl⟩) scans_nil
  | cons member members =>
    obtain ⟨hmember, hmembers⟩ := List.forall_mem_cons.1 h
    obtain ⟨key, value⟩ := member
    rw [Json.print_compact_object_cons, tokenKinds?]
    exact leads_brackets (.inr ⟨rfl, rfl⟩) (.inr ⟨rfl, rfl⟩)
      (((hmember (level + 1) depth).member key).append
        (scans_printMembers hmembers (level + 1) depth)
        fun _ => head?_printMembers_append (level + 1) members)

/-- An array leads to its tokens if its items fall into theirs. -/
theorem leads_array {items : List Json} (h : ∀ v ∈ items, ScansValue v)
    (level depth : Nat) (cs : List Char) (m : Mark) (before : List TokenKind) :
    Leads (Json.print .compact level (.array items)).length
      (IsAt (Json.print .compact level (.array items) ++ cs) m before depth)
      ((tokenKinds? (.array items)).map fun kinds =>
        IsAt cs (m.after (Json.print .compact level (.array items))) (before ++ kinds) depth) := by
  cases items with
  | nil => exact leads_brackets (.inl ⟨rfl, rfl⟩) (.inl ⟨rfl, rfl⟩) scans_nil
  | cons item items =>
    obtain ⟨hitem, hitems⟩ := List.forall_mem_cons.1 h
    rw [Json.print_compact_array_cons, tokenKinds?]
    exact leads_brackets (.inl ⟨rfl, rfl⟩) (.inl ⟨rfl, rfl⟩)
      ((hitem (level + 1) depth).toKey.append (scans_printItems hitems (level + 1) depth)
        fun _ => head?_printItems_append (level + 1) items)

/-- A word is a plain scalar. -/
theorem scans_word {atKey : Bool} {depth : Nat} {word : List Char} (h : IsWord word) :
    Scans atKey (depth + 1) word (some [.scalar .plain word]) := by
  have hlength : 1 ≤ word.length := by
    cases word with
    | nil => cases h
    | cons => exact Nat.succ_pos _
  exact .of_leads fun cs m before hcs => (leads_word h hcs).mono hlength

/-- What is written for an integer is a word. -/
theorem isWord_integerChars (n : Int) : IsWord (Json.integerChars n) := by
  have hdigits (n : Nat) : ∀ c ∈ Nat.toDigits 10 n, c.isAlphanum := fun c hc => by
    rw [Char.isAlphanum, Nat.isDigit_of_mem_toDigits (by decide) (by decide) hc, Bool.or_true]
  cases n with
  | ofNat n =>
    have hn := hdigits n
    rw [Json.integerChars]
    obtain ⟨c, cs, heq⟩ := List.exists_cons_of_ne_nil (Nat.toDigits_ne_nil (n := n) (b := 10))
    rw [heq] at hn ⊢
    exact ⟨.inl (hn c List.mem_cons_self), fun d hd => hn d (List.mem_cons_of_mem c hd)⟩
  | negSucc n => exact ⟨.inr ⟨rfl, Nat.toDigits_ne_nil⟩, hdigits (n + 1)⟩

/-- Every value falls into its tokens. -/
theorem scansValue_of_isExact {v : Json} (h : v.IsExact) : ScansValue v := by
  induction h with
  | null => exact fun _ _ => scans_word ⟨.inl rfl, by decide⟩
  | boolean b =>
    cases b
    · exact fun _ _ => scans_word ⟨.inl rfl, by decide⟩
    · exact fun _ _ => scans_word ⟨.inl rfl, by decide⟩
  | integer => exact fun _ _ => scans_word (isWord_integerChars _)
  | text s =>
    refine fun level depth => .of_leads fun cs m before _ => ?_
    rw [tokenKinds?, Option.map_map]
    exact leads_textChars.mono (Nat.succ_le_succ (Nat.zero_le _))
  | array _ ih =>
    exact fun level depth => .of_leads fun cs m before _ =>
      leads_array ih level (depth + 1) cs m before
  | object _ ih =>
    exact fun level depth => .of_leads fun cs m before _ =>
      leads_object ih level (depth + 1) cs m before

/-- **The tokens of a JSON object.**  Its text, if a document may hold all its characters, falls
    into the tokens of its members. -/
theorem ofChars?_print_object {members : List (String × Json)} (h : ∀ m ∈ members, m.2.IsExact) :
    (Token.ofChars? (Json.print .compact 0 (.object members))).map (List.map Token.kind) =
      if (Json.print .compact 0 (.object members)).all isPermitted then
        (tokenKinds? (.object members)).map (· ++ [.streamEnd])
      else none := by
  rw [Token.ofChars?]
  split_ifs with hpermitted
  · have hstart : IsAt (Json.print .compact 0 (.object members) ++ []) .start [] 0
        { cursor := .ofList (Json.print .compact 0 (.object members)) } :=
      ⟨by rw [List.append_nil]; rfl, rfl, rfl, rfl, nofun, nofun⟩
    obtain ⟨steps, hsteps, hrun⟩ := leads_object (fun m hm => scansValue_of_isExact (h m hm)) 0 0 []
      .start [] _ hstart
    -- The run is allowed a step for each character, and one more for the end.
    obtain ⟨fuel, hfuel⟩ := Nat.exists_eq_add_of_le' hsteps
    rw [hfuel, Nat.add_right_comm]
    cases hkinds : tokenKinds? (.object members) with
    | none =>
      rw [hkinds] at hrun
      rw [hrun, Option.map_none, Option.map_none]
    | some kinds =>
      rw [hkinds] at hrun
      obtain ⟨t, ht, hrun⟩ := hrun
      rw [hrun, run?_nil ht]
      rfl
  · rfl

end Values

end MachineTuning.Yaml
