import MachineTuning.Proofs.Json.Texts
import MachineTuning.Proofs.Yaml.Written.Style

namespace MachineTuning.Yaml

/-!
# Values — what YAML writes may stand in a document

Only some characters may stand in a document at all.  Texts are written with those, whatever they
hold, and everything around them is punctuation, spaces and breaks.
-/

/-- Everything in a text may stand in a document. -/
def ArePermitted (cs : List Char) : Prop :=
  ∀ c ∈ cs, isPermitted c

/-- So may what is written for a value, wherever it stands. -/
def PrintsPermitted (v : Json) : Prop :=
  ∀ sameLine k, ArePermitted (printValue sameLine k v)

section Permitted

variable {cs ds : List Char}

/-- Whether all characters are permitted can be checked one by one. -/
theorem arePermitted_of_all (h : cs.all isPermitted) : ArePermitted cs :=
  List.all_eq_true.1 h

/-- Two permitted texts in a row are permitted. -/
theorem ArePermitted.append (h : ArePermitted cs) (h' : ArePermitted ds) :
    ArePermitted (cs ++ ds) :=
  List.forall_mem_append.2 ⟨h, h'⟩

/-- A permitted character in front of a permitted text is permitted. -/
theorem ArePermitted.cons {c : Char} (h : ArePermitted cs) (hc : isPermitted c) :
    ArePermitted (c :: cs) :=
  List.forall_mem_cons.2 ⟨hc, h⟩

/-- Indentation is permitted. -/
theorem arePermitted_indentation (n : Nat) : ArePermitted (indentation n) := fun c hc => by
  rw [mem_indentation hc]
  rfl

/-- What stands between a key or dash and its value is permitted. -/
theorem arePermitted_opening (sameLine : Bool) (n : Nat) :
    ArePermitted (opening sameLine n) := by
  cases sameLine with
  | false => exact (arePermitted_indentation n).cons rfl
  | true => exact arePermitted_of_all rfl

/-- The line of a key is permitted. -/
theorem arePermitted_keyLine (n : Nat) (key : String) : ArePermitted (keyLine n key) := by
  have hcolon : ArePermitted [':'] := arePermitted_of_all rfl
  rw [keyLine]
  -- A short key is on one line; a long one is a text with marks in front of it and of its value.
  split_ifs with hsimple
  · have hkey : ArePermitted (keyChars key) := fun c hc => (forall_mem_keyChars hsimple c hc).1
    exact hkey.append hcolon
  · have hkey : ArePermitted (textLine (n + 2) key) := fun c hc => isPermitted_of_mem_textLine hc
    exact (((hkey.cons rfl).cons rfl).append (arePermitted_indentation n)).append hcolon

/-- Items are printed in permitted characters if each of them is. -/
theorem arePermitted_printItems {items : List Json} (h : ∀ v ∈ items, PrintsPermitted v)
    (k : Nat) : ArePermitted (printItems k items) := by
  induction items with
  | nil => exact arePermitted_of_all rfl
  | cons item items ih =>
    obtain ⟨hitem, hitems⟩ := List.forall_mem_cons.1 h
    rw [printItems]
    exact ((arePermitted_indentation k).append ((hitem true k).cons rfl)).append (ih hitems)

/-- Members are printed in permitted characters if each value is. -/
theorem arePermitted_printMembers {members : List (String × Json)}
    (h : ∀ m ∈ members, PrintsPermitted m.2) (k : Nat) :
    ArePermitted (printMembers k members) := by
  induction members with
  | nil => exact arePermitted_of_all rfl
  | cons member members ih =>
    obtain ⟨hvalue, hmembers⟩ := List.forall_mem_cons.1 h
    obtain ⟨key, value⟩ := member
    rw [printMembers]
    exact (((arePermitted_indentation k).append (arePermitted_keyLine k key)).append
      (hvalue _ k)).append (ih hmembers)

/-- An array is printed in permitted characters if its items are. -/
theorem printsPermitted_array {items : List Json} (h : ∀ v ∈ items, PrintsPermitted v) :
    PrintsPermitted (.array items) := by
  intro sameLine k
  cases items with
  | nil => exact arePermitted_of_all rfl
  | cons item items =>
    obtain ⟨hitem, hitems⟩ := List.forall_mem_cons.1 h
    have hall (k : Nat) : ArePermitted
        ('-' :: printValue true k item ++ printItems k items) :=
      ((hitem true k).cons rfl).append (arePermitted_printItems hitems k)
    rw [printValue, List.append_assoc]
    exact (arePermitted_opening sameLine _).append (hall _)

/-- An object is printed in permitted characters if the values of its members are. -/
theorem printsPermitted_object {members : List (String × Json)}
    (h : ∀ m ∈ members, PrintsPermitted m.2) : PrintsPermitted (.object members) := by
  intro sameLine k
  cases members with
  | nil => exact arePermitted_of_all rfl
  | cons member members =>
    obtain ⟨hvalue, hmembers⟩ := List.forall_mem_cons.1 h
    obtain ⟨key, value⟩ := member
    rw [printValue]
    exact (((arePermitted_opening sameLine _).append (arePermitted_keyLine _ key)).append
      (hvalue _ _)).append (arePermitted_printMembers hmembers _)

/-- Printable characters of ASCII are permitted. -/
theorem isPermitted_of_ascii {c : Char} (hlower : 0x20 ≤ c.toNat) (hupper : c.toNat < 0x7F) :
    isPermitted c := by
  have hle : c.toNat ≤ 0x7E := by omega
  simp [isPermitted, hlower, hle]

/-- Every value is written with characters that a document may hold. -/
theorem printsPermitted_of_isExact {v : Json} (h : v.IsExact) : PrintsPermitted v := by
  -- Exact values hold no numbers but integers, so that only digits and texts are left to look at.
  induction h with
  | null => exact fun _ _ => arePermitted_of_all rfl
  | boolean b => exact fun _ _ => arePermitted_of_all (by cases b <;> rfl)
  | integer =>
    have hdigits (n : Int) : ArePermitted (Json.integerChars n) := fun c hc =>
      isPermitted_of_ascii (Json.ascii_of_mem_integerChars n c hc).1
        (Json.ascii_of_mem_integerChars n c hc).2
    exact fun _ _ => ((hdigits _).append (arePermitted_of_all rfl)).cons rfl
  | text s =>
    intro sameLine k
    have htext : ArePermitted (textLine (k + 2) s) := fun c hc => isPermitted_of_mem_textLine hc
    exact htext.cons rfl
  | array _ ih => exact printsPermitted_array ih
  | object _ ih => exact printsPermitted_object ih

end Permitted

end MachineTuning.Yaml
