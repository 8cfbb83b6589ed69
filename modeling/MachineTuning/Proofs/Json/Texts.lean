import MachineTuning.Proofs.Json.ReadBack

namespace MachineTuning.Json

/-!
# The texts of a JSON value

`Json.texts` are the texts that a value holds at any depth, `Json.keys` the keys of its objects.
`Json.mapTexts` changes the texts and keeps the keys.  Which characters stand in the text of a value
is settled by both together.
-/

mutual
/-- The texts of a value, without keys. -/
def texts : Json → List String
  | .text s => [s]
  | .array items => itemTexts items
  | .object members => memberTexts members
  | _ => []

/-- The texts of several items. -/
def itemTexts : List Json → List String
  | [] => []
  | item :: items => texts item ++ itemTexts items

/-- The texts of several members. -/
def memberTexts : List (String × Json) → List String
  | [] => []
  | (_, value) :: members => texts value ++ memberTexts members
end

mutual
/-- The keys of the objects of a value. -/
def keys : Json → List String
  | .array items => itemKeys items
  | .object members => memberKeys members
  | _ => []

/-- The keys in several items. -/
def itemKeys : List Json → List String
  | [] => []
  | item :: items => keys item ++ itemKeys items

/-- The keys of several members and in them. -/
def memberKeys : List (String × Json) → List String
  | [] => []
  | (key, value) :: members => (key :: keys value) ++ memberKeys members
end

mutual
/-- A value with its texts changed. -/
def mapTexts (f : String → String) : Json → Json
  | .null => .null
  | .boolean b => .boolean b
  | .number n => .number n
  | .text s => .text (f s)
  | .array items => .array (mapItemTexts f items)
  | .object members => .object (mapMemberTexts f members)

/-- Items with their texts changed. -/
def mapItemTexts (f : String → String) : List Json → List Json
  | [] => []
  | item :: items => mapTexts f item :: mapItemTexts f items

/-- Members with their texts changed. -/
def mapMemberTexts (f : String → String) : List (String × Json) → List (String × Json)
  | [] => []
  | (key, value) :: members => (key, mapTexts f value) :: mapMemberTexts f members
end

section Lists

variable (f : String → String)

/-- The texts in some items are those of each of them. -/
theorem itemTexts_eq_flatMap (items : List Json) : itemTexts items = items.flatMap texts := by
  induction items with
  | nil => rfl
  | cons item items ih => rw [itemTexts, ih, List.flatMap_cons]

/-- The texts in some members are those of each value. -/
theorem memberTexts_eq_flatMap (members : List (String × Json)) :
    memberTexts members = members.flatMap fun m => texts m.2 := by
  induction members with
  | nil => rfl
  | cons m members ih => rw [memberTexts, ih, List.flatMap_cons]

/-- The keys in some items are those of each of them. -/
theorem itemKeys_eq_flatMap (items : List Json) : itemKeys items = items.flatMap keys := by
  induction items with
  | nil => rfl
  | cons item items ih => rw [itemKeys, ih, List.flatMap_cons]

/-- The keys in some members are the key of each and those in its value. -/
theorem memberKeys_eq_flatMap (members : List (String × Json)) :
    memberKeys members = members.flatMap fun m => m.1 :: keys m.2 := by
  induction members with
  | nil => rfl
  | cons m members ih => rw [memberKeys, ih, List.flatMap_cons]

/-- What holds of all keys in some items holds of those in each item. -/
theorem forall_mem_itemKeys_iff {P : String → Prop} {items : List Json} :
    (∀ key ∈ itemKeys items, P key) ↔ ∀ item ∈ items, ∀ key ∈ item.keys, P key := by
  rw [itemKeys_eq_flatMap, List.forall_mem_flatMap]

/-- What holds of all keys in some members holds of each key and of those in each value. -/
theorem forall_mem_memberKeys_iff {P : String → Prop} {members : List (String × Json)} :
    (∀ key ∈ memberKeys members, P key) ↔ ∀ m ∈ members, P m.1 ∧ ∀ key ∈ m.2.keys, P key := by
  simp only [memberKeys_eq_flatMap, List.forall_mem_flatMap, List.forall_mem_cons]

/-- The texts in some items are changed item by item. -/
theorem mapItemTexts_eq_map (items : List Json) :
    mapItemTexts f items = items.map (mapTexts f) := by
  induction items with
  | nil => rfl
  | cons item items ih => rw [mapItemTexts, ih, List.map_cons]

/-- The texts in some members are changed value by value, and the keys stay. -/
theorem mapMemberTexts_eq_map (members : List (String × Json)) :
    mapMemberTexts f members = members.map fun m => (m.1, mapTexts f m.2) := by
  induction members with
  | nil => rfl
  | cons m members ih => rw [mapMemberTexts, ih, List.map_cons]

end Lists

section Texts

variable {f : String → String}

mutual
/-- A value stays as it is if and only if its texts do. -/
theorem mapTexts_eq_self_iff : ∀ v : Json, v.mapTexts f = v ↔ ∀ s ∈ v.texts, f s = s
  | .null => by simp [mapTexts, texts]
  | .boolean b => by simp [mapTexts, texts]
  | .number n => by simp [mapTexts, texts]
  | .text s => by simp [mapTexts, texts]
  | .array items => by rw [mapTexts, Json.array.injEq, mapItemTexts_eq_self_iff items, texts]
  | .object members => by
    rw [mapTexts, Json.object.injEq, mapMemberTexts_eq_self_iff members, texts]

/-- Items stay as they are exactly if all texts in them do. -/
theorem mapItemTexts_eq_self_iff : ∀ items : List Json,
    mapItemTexts f items = items ↔ ∀ s ∈ itemTexts items, f s = s
  | [] => by simp [mapItemTexts, itemTexts]
  | item :: items => by
    rw [mapItemTexts, List.cons.injEq, mapTexts_eq_self_iff item, mapItemTexts_eq_self_iff items,
      itemTexts, List.forall_mem_append]

/-- Members stay as they are exactly if all texts in their values do. -/
theorem mapMemberTexts_eq_self_iff : ∀ members : List (String × Json),
    mapMemberTexts f members = members ↔ ∀ s ∈ memberTexts members, f s = s
  | [] => by simp [mapMemberTexts, memberTexts]
  | (key, value) :: members => by
    rw [mapMemberTexts, List.cons.injEq, Prod.mk.injEq, mapTexts_eq_self_iff value,
      mapMemberTexts_eq_self_iff members, memberTexts, List.forall_mem_append]
    simp
end

end Texts

/-! ### The text of a value without blanks -/

section Compact

variable (level : Nat)

/-- An array without blanks is its items between brackets. -/
theorem print_compact_array_cons (item : Json) (items : List Json) :
    print .compact level (.array (item :: items)) =
      '[' :: (print .compact (level + 1) item ++ printItems .compact (level + 1) items) ++
        [']'] := by
  simp [print, Layout.compact]

/-- An object without blanks is its members between braces. -/
theorem print_compact_object_cons (key : String) (value : Json) (members : List (String × Json)) :
    print .compact level (.object ((key, value) :: members)) =
      '\x7b' :: ((textChars key ++ ':' :: print .compact (level + 1) value) ++
        printMembers .compact (level + 1) members) ++ ['\x7d'] := by
  simp [print, Layout.compact]

/-- Further items without blanks, each behind a comma. -/
theorem printItems_compact_cons (item : Json) (items : List Json) :
    printItems .compact level (item :: items) =
      ',' :: print .compact level item ++ printItems .compact level items := by
  simp [printItems, Layout.compact]

/-- Further members without blanks, each behind a comma. -/
theorem printMembers_compact_cons (key : String) (value : Json) (members : List (String × Json)) :
    printMembers .compact level ((key, value) :: members) =
      ',' :: (textChars key ++ ':' :: print .compact level value) ++
        printMembers .compact level members := by
  simp [printMembers, Layout.compact]

end Compact

/-! ### Characters -/

section Characters

variable {p : Char → Prop}

/-- The four digits of a control are ASCII. -/
theorem toNat_of_mem_padded_hexadecimal : ∀ n < 0x20, ∀ c ∈ Text.padded 4 (Text.hexadecimal n),
    0x20 ≤ c.toNat ∧ c.toNat < 0x7F := by
  decide

/-- Digits are printable characters of ASCII. -/
theorem ascii_of_isDigit {c : Char} (h : c.isDigit) : 0x20 ≤ c.toNat ∧ c.toNat < 0x7F := by
  obtain ⟨hlower, hupper⟩ : 0x30 ≤ c.toNat ∧ c.toNat ≤ 0x39 := Char.isDigit_iff_toNat.1 h
  omega

/-- An integer is written in digits, with a minus if it is negative. -/
theorem isDigit_or_of_mem_integerChars (n : Int) : ∀ c ∈ integerChars n, c.isDigit ∨ c = '-' := by
  have hdigits (n : Nat) : ∀ c ∈ Nat.toDigits 10 n, c.isDigit ∨ c = '-' := fun c hc =>
    .inl (Nat.isDigit_of_mem_toDigits (by decide) (by decide) hc)
  cases n with
  | ofNat n => exact hdigits n
  | negSucc n => exact List.forall_mem_cons.2 ⟨.inr rfl, hdigits (n + 1)⟩

/-- An integer is written with at least one character. -/
theorem integerChars_ne_nil (n : Int) : integerChars n ≠ [] := by
  cases n with
  | ofNat n => exact Nat.toDigits_ne_nil
  | negSucc n => exact List.cons_ne_nil _ _

/-- An integer is written in printable characters of ASCII. -/
theorem ascii_of_mem_integerChars (n : Int) :
    ∀ c ∈ integerChars n, 0x20 ≤ c.toNat ∧ c.toNat < 0x7F := by
  intro c hc
  rcases isDigit_or_of_mem_integerChars n c hc with hdigit | rfl
  · exact ascii_of_isDigit hdigit
  · decide

/-- A character stands for itself, or its escape is ASCII. -/
theorem escapedChar_eq_or (c : Char) :
    escapedChar c = [c] ∧ ¬c.toNat < 0x20 ∨
      (∀ d ∈ escapedChar c, 0x20 ≤ d.toNat ∧ d.toNat < 0x7F) ∧ c.toNat < 0x7F := by
  by_cases hletter : c ∈ lettered
  · have hall : ∀ c ∈ lettered,
        (∀ d ∈ escapedChar c, 0x20 ≤ d.toNat ∧ d.toNat < 0x7F) ∧ c.toNat < 0x7F := by decide
    exact .inr (hall c hletter)
  · rw [escapedChar_of_not_mem hletter]
    split
    · next hcontrol =>
      have hdigits := toNat_of_mem_padded_hexadecimal c.toNat hcontrol
      exact .inr ⟨List.forall_mem_cons.2 ⟨by decide, List.forall_mem_cons.2 ⟨by decide, hdigits⟩⟩,
        by omega⟩
    · next hcontrol => exact .inl ⟨rfl, hcontrol⟩

/-- Whether all characters of a text are in a class is settled by some of its parts: controls of
    theirs are written as ASCII, all other characters as they are. -/
def SettledBy (p : Char → Prop) (text : List Char) (texts keys : List String) : Prop :=
  (∀ c ∈ text, p c) ↔
    (∀ s ∈ texts, ∀ c ∈ s.toList, c.toNat < 0x20 ∨ p c) ∧
      ∀ s ∈ keys, ∀ c ∈ s.toList, c.toNat < 0x20 ∨ p c

/-- What settles two texts settles them in a row. -/
theorem SettledBy.append {text text' : List Char} {texts texts' keys keys' : List String}
    (h : SettledBy p text texts keys) (h' : SettledBy p text' texts' keys') :
    SettledBy p (text ++ text') (texts ++ texts') (keys ++ keys') := by
  unfold SettledBy at *
  rw [List.forall_mem_append, h, h', List.forall_mem_append, List.forall_mem_append]
  exact and_and_and_comm

-- from here on, the class holds all printable ASCII
variable (hascii : ∀ c : Char, 0x20 ≤ c.toNat → c.toNat < 0x7F → p c)
include hascii

/-- What is written for a character is settled by the character, unless it is a control. -/
theorem forall_mem_escapedChar_iff (c : Char) :
    (∀ d ∈ escapedChar c, p d) ↔ c.toNat < 0x20 ∨ p c := by
  rcases escapedChar_eq_or c with ⟨hself, hcontrol⟩ | ⟨hescape, hc⟩
  · rw [hself, List.forall_mem_singleton]
    exact (or_iff_right hcontrol).symm
  · refine iff_of_true (fun d hd => hascii d (hescape d hd).1 (hescape d hd).2) ?_
    exact (Nat.lt_or_ge c.toNat 0x20).imp_right fun hlower => hascii c hlower hc

/-- What is written for a text is settled by its characters. -/
theorem forall_mem_textChars_iff (s : String) :
    (∀ c ∈ textChars s, p c) ↔ ∀ c ∈ s.toList, c.toNat < 0x20 ∨ p c := by
  have hquote : p '"' := hascii '"' (by decide) (by decide)
  have hbody : (∀ c ∈ s.toList.flatMap escapedChar, p c) ↔
      ∀ c ∈ s.toList, c.toNat < 0x20 ∨ p c := by
    rw [List.forall_mem_flatMap]
    exact forall₂_congr fun c _ => forall_mem_escapedChar_iff hascii c
  rw [textChars, List.forall_mem_append, List.forall_mem_cons, List.forall_mem_singleton, hbody]
  simp only [hquote, true_and, and_true]

/-- Printable characters of ASCII are settled by nothing. -/
theorem settledBy_ascii (text : List Char) (h : ∀ c ∈ text, 0x20 ≤ c.toNat ∧ c.toNat < 0x7F) :
    SettledBy p text [] [] := by
  simpa [SettledBy] using fun c hc => hascii c (h c hc).1 (h c hc).2

/-- A key is settled by itself. -/
theorem settledBy_key (key : String) : SettledBy p (textChars key) [] [key] := by
  simpa [SettledBy] using forall_mem_textChars_iff hascii key

/-- A text is settled by itself. -/
theorem settledBy_text (s : String) : SettledBy p (textChars s) [s] [] := by
  simpa [SettledBy] using forall_mem_textChars_iff hascii s

/-- Punctuation around a text does not matter. -/
theorem SettledBy.between {text : List Char} {texts keys : List String}
    (h : SettledBy p text texts keys) (first last : List Char)
    (hfirst : ∀ c ∈ first, 0x20 ≤ c.toNat ∧ c.toNat < 0x7F)
    (hlast : ∀ c ∈ last, 0x20 ≤ c.toNat ∧ c.toNat < 0x7F) :
    SettledBy p (first ++ text ++ last) texts keys := by
  have hall := ((settledBy_ascii hascii first hfirst).append h).append
    (settledBy_ascii hascii last hlast)
  rwa [List.append_nil, List.append_nil, List.nil_append, List.nil_append] at hall

/-- Further items are settled by the texts and keys in them. -/
theorem settledBy_printItems {items : List Json}
    (h : ∀ v ∈ items, ∀ level, SettledBy p (print .compact level v) v.texts v.keys) (level : Nat) :
    SettledBy p (printItems .compact level items) (itemTexts items) (itemKeys items) := by
  induction items with
  | nil => exact settledBy_ascii hascii [] nofun
  | cons item items ih =>
    obtain ⟨hitem, hitems⟩ := List.forall_mem_cons.1 h
    rw [printItems_compact_cons]
    exact ((settledBy_ascii hascii [','] (by decide)).append (hitem level)).append
      (ih hitems)

/-- A member is settled by its key and by what is in its value. -/
theorem settledBy_member {key : String} {value : Json} {level : Nat}
    (h : SettledBy p (print .compact level value) value.texts value.keys) :
    SettledBy p (textChars key ++ ':' :: print .compact level value) value.texts
      (key :: value.keys) :=
  (settledBy_key hascii key).append ((settledBy_ascii hascii [':'] (by decide)).append h)

/-- Further members are settled by their keys and by what is in their values. -/
theorem settledBy_printMembers {members : List (String × Json)}
    (h : ∀ m ∈ members, ∀ level, SettledBy p (print .compact level m.2) m.2.texts m.2.keys)
    (level : Nat) :
    SettledBy p (printMembers .compact level members) (memberTexts members)
      (memberKeys members) := by
  induction members with
  | nil => exact settledBy_ascii hascii [] nofun
  | cons member members ih =>
    obtain ⟨hmember, hmembers⟩ := List.forall_mem_cons.1 h
    rw [printMembers_compact_cons]
    exact ((settledBy_ascii hascii [','] (by decide)).append
      (settledBy_member hascii (hmember level))).append (ih hmembers)

/-- **The characters of a value's text** are those of its texts and keys, and ASCII. -/
theorem settledBy_print {v : Json} (h : v.IsExact) (level : Nat) :
    SettledBy p (print .compact level v) v.texts v.keys := by
  -- The layout puts nothing but ASCII between the texts, so that each part is settled by its own.
  induction h generalizing level with
  | null => exact settledBy_ascii hascii "null".toList (by decide)
  | boolean b =>
    cases b
    · exact settledBy_ascii hascii "false".toList (by decide)
    · exact settledBy_ascii hascii "true".toList (by decide)
  | integer => exact settledBy_ascii hascii _ (ascii_of_mem_integerChars _)
  | text s => exact settledBy_text hascii s
  | @array items _ ih =>
    cases items with
    | nil => exact settledBy_ascii hascii ['[', ']'] (by decide)
    | cons item items =>
      obtain ⟨hitem, hitems⟩ := List.forall_mem_cons.1 ih
      rw [print_compact_array_cons]
      exact ((hitem _).append (settledBy_printItems hascii hitems _)).between hascii ['['] [']']
        (by decide) (by decide)
  | @object members _ ih =>
    cases members with
    | nil => exact settledBy_ascii hascii ['\x7b', '\x7d'] (by decide)
    | cons member members =>
      obtain ⟨hmember, hmembers⟩ := List.forall_mem_cons.1 ih
      rw [print_compact_object_cons]
      exact ((settledBy_member hascii (hmember _)).append
        (settledBy_printMembers hascii hmembers _)).between hascii ['\x7b'] ['\x7d'] (by decide)
        (by decide)

end Characters

end MachineTuning.Json
