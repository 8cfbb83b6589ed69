namespace MachineTuning.Text

/-!
# UTF-8 — text as the bytes of a file

Files hold bytes, documents are text.  `utf8` and `ofUtf8?` are the two directions;
`ofUtf8?_utf8` says that no text is lost on the way, `utf8_injective` that no two are confused.
`byteLength` measures characters in bytes, and `dropBytes?` and `takeBytes?` cut a text at a
number of them.  `utf8Complaint` says what is wrong with bytes that are no text.
-/

/-- The UTF-8 bytes of a text. -/
def utf8 (s : String) : List UInt8 :=
  s.toUTF8.data.toList

/-- The text with these UTF-8 bytes, if they are well formed. -/
def ofUtf8? (bytes : List UInt8) : Option String :=
  String.fromUTF8? ⟨bytes.toArray⟩

/-- Reading the bytes of a text gives the text. -/
theorem ofUtf8?_utf8 (s : String) : ofUtf8? (utf8 s) = some s := by
  have h : (⟨(utf8 s).toArray⟩ : ByteArray) = s.toByteArray := by
    simp [utf8]
  rw [ofUtf8?, h, String.fromUTF8?, dif_pos s.isValidUTF8]
  rfl

/-- The bytes that are text are those of some text. -/
theorem ofUtf8?_eq_some_iff {bytes : List UInt8} {s : String} :
    ofUtf8? bytes = some s ↔ bytes = utf8 s := by
  constructor
  · intro h
    rw [ofUtf8?, String.fromUTF8?] at h
    split at h
    · obtain rfl := Option.some.inj h
      rfl
    · cases h
  · rintro rfl
    exact ofUtf8?_utf8 s

/-- Different texts have different bytes. -/
theorem utf8_injective {s t : String} (h : utf8 s = utf8 t) : s = t := by
  have hs := ofUtf8?_utf8 s
  rw [h, ofUtf8?_utf8 t] at hs
  exact (Option.some.inj hs).symm

/-- The bytes of two texts in a row. -/
theorem utf8_append (s t : String) : utf8 (s ++ t) = utf8 s ++ utf8 t := by
  simp [utf8]

/-- The bytes of characters that take up one byte each. -/
theorem utf8_ofList_of_utf8Size_eq_one {cs : List Char} (h : ∀ c ∈ cs, c.utf8Size = 1) :
    utf8 (String.ofList cs) = cs.map Char.toUInt8 := by
  have hbytes : utf8 (String.ofList cs) = cs.flatMap String.utf8EncodeChar := by
    simp [utf8, List.utf8Encode]
  rw [hbytes]
  clear hbytes
  induction cs with
  | nil => rfl
  | cons c cs ih =>
    rw [List.flatMap_cons, String.utf8EncodeChar_eq_singleton (h c List.mem_cons_self),
      ih fun d hd => h d (List.mem_cons_of_mem _ hd)]
    rfl

/-! ### Lengths in bytes -/

/-- The number of bytes that characters take up. -/
def byteLength (cs : List Char) : Nat :=
  cs.foldr (fun c n => c.utf8Size + n) 0

/-- The number of bytes that a text takes up. -/
def byteCount (s : String) : Nat :=
  byteLength s.toList

/-- What is left behind so many bytes, if a character ends there. -/
def dropBytes? : Nat → List Char → Option (List Char)
  | 0, cs => some cs
  | _ + 1, [] => none
  | n + 1, c :: cs => if c.utf8Size ≤ n + 1 then dropBytes? (n + 1 - c.utf8Size) cs else none

/-- The characters that take up so many bytes, if one ends there. -/
def takeBytes? : Nat → List Char → Option (List Char)
  | 0, _ => some []
  | _ + 1, [] => none
  | n + 1, c :: cs =>
    if c.utf8Size ≤ n + 1 then (takeBytes? (n + 1 - c.utf8Size) cs).map (c :: ·) else none

/-- The bytes of a character and of those behind it. -/
theorem byteLength_cons (c : Char) (cs : List Char) :
    byteLength (c :: cs) = c.utf8Size + byteLength cs := rfl

/-- The number of bytes of two runs of characters. -/
theorem byteLength_append (cs ds : List Char) :
    byteLength (cs ++ ds) = byteLength cs + byteLength ds := by
  induction cs with
  | nil => exact (Nat.zero_add _).symm
  | cons c cs ih => rw [List.cons_append, byteLength_cons, byteLength_cons, ih, Nat.add_assoc]

/-- The number of bytes of two texts in a row. -/
theorem byteCount_append (s t : String) : byteCount (s ++ t) = byteCount s + byteCount t := by
  rw [byteCount, String.toList_append, byteLength_append]
  rfl

/-- The bytes of the characters of a text are the bytes of the text. -/
theorem byteLength_toList (s : String) : byteLength s.toList = s.utf8ByteSize := by
  have h (cs : List Char) : byteLength cs = (String.ofList cs).utf8ByteSize := by
    induction cs with
    | nil => rfl
    | cons c cs ih =>
      rw [byteLength_cons, ih, ← List.singleton_append, String.ofList_append,
        String.utf8ByteSize_append]
      simp
  rw [h, String.ofList_toList]

/-! ### Bytes that are no text -/

/-- The ranges of the bytes that follow the first byte of a character, if it is one. -/
def followers? (first : UInt8) : Option (List (UInt8 × UInt8)) :=
  if first < 0x80 then some []
  else if 0xc2 ≤ first ∧ first < 0xe0 then some [(0x80, 0xbf)]
  else if first = 0xe0 then some [(0xa0, 0xbf), (0x80, 0xbf)]
  else if first = 0xed then some [(0x80, 0x9f), (0x80, 0xbf)]
  else if 0xe0 < first ∧ first < 0xf0 then some [(0x80, 0xbf), (0x80, 0xbf)]
  else if first = 0xf0 then some [(0x90, 0xbf), (0x80, 0xbf), (0x80, 0xbf)]
  else if 0xf0 < first ∧ first < 0xf4 then some [(0x80, 0xbf), (0x80, 0xbf), (0x80, 0xbf)]
  else if first = 0xf4 then some [(0x80, 0x8f), (0x80, 0xbf), (0x80, 0xbf)]
  else none

/-- Where the first character starts that is not well formed, and how many bytes of it are there if
    another one should follow.  A character with `taken` bytes starts at `start`, and `expected`
    are the ranges of those that follow. -/
def malformed? (start taken : Nat) (expected : List (UInt8 × UInt8)) :
    List UInt8 → Option (Nat × Option Nat)
  | [] => if expected.isEmpty then none else some (start, none)
  | byte :: bytes =>
    match expected with
    | [] =>
      match followers? byte with
      | none => some (start + taken, some 1)
      | some ranges => malformed? (start + taken) 1 ranges bytes
    | range :: ranges =>
      if range.1 ≤ byte ∧ byte ≤ range.2 then malformed? start (taken + 1) ranges bytes
      else some (start, some taken)

/-- What is wrong with bytes that are no text. -/
def utf8Complaint (bytes : List UInt8) : String :=
  match malformed? 0 0 [] bytes with
  | none => ""
  | some (start, none) => s!"incomplete utf-8 byte sequence from index {start}"
  | some (start, some n) => s!"invalid utf-8 sequence of {n} bytes from index {start}"

end MachineTuning.Text
