import MachineTuning.Base64
import Mathlib.Algebra.Group.Nat.Defs
import Mathlib.Data.List.Basic

namespace MachineTuning.Base64

/-!
# Base64 — the encoding is canonical

Decoding accepts exactly the texts that encoding writes, so bytes and texts correspond one to
one:

* `decode_eq_ok_iff_encode` — a text decodes to some bytes iff it is their encoding;
* `isCanonical_iff` — the encodings are the canonical payloads, which `IsCanonical` describes by
  the alphabet, the padding and the unused bits alone.

Both rest on one view of a group of four symbols.  `spelled` gives the bytes that two, three or
four sextets spell, `padded` their symbols with the padding behind them.  Encoding
(`encode_of_spelled`) and decoding of a last group (`decodeLast_padded`,
`exists_spelled_of_decodeLast`) are stated over this view, and whole texts follow by induction
on the groups.
-/

/-! ### The alphabet -/

/-- The symbols in the order of the six bits that they spell. -/
def alphabet : List Char :=
  "ABCDEFGHIJKLMNOPQRSTUVWXYZabcdefghijklmnopqrstuvwxyz0123456789+/".toList

/-- The alphabet lists the symbols by their numbers. -/
theorem alphabet_getElem? : ∀ n < 64, alphabet[n]? = some (symbol n) := by decide

/-- Every symbol of six bits is in the alphabet. -/
theorem symbol_mem_alphabet {n : Nat} (h : n < 64) : symbol n ∈ alphabet :=
  List.mem_of_getElem? (alphabet_getElem? n h)

/-- A symbol stands at the place of its number. -/
theorem idxOf_symbol : ∀ n < 64, alphabet.idxOf (symbol n) = n := by decide

/-- The alphabet holds nothing but symbols. -/
theorem exists_eq_symbol {c : Char} (h : c ∈ alphabet) : ∃ n < 64, c = symbol n := by
  obtain ⟨n, hn⟩ := List.mem_iff_getElem?.1 h
  have hlt : n < 64 := (List.getElem?_eq_some_iff.1 hn).1
  rw [alphabet_getElem? n hlt] at hn
  exact ⟨n, hlt, (Option.some.inj hn).symm⟩

/-- Symbols of the alphabet are the symbols of some sextets. -/
theorem exists_eq_map_symbol {symbols : List Char} (h : ∀ c ∈ symbols, c ∈ alphabet) :
    ∃ sextets : List Nat, (∀ n ∈ sextets, n < 64) ∧ symbols = sextets.map symbol := by
  induction symbols with
  | nil => exact ⟨[], by simp, rfl⟩
  | cons c symbols ih =>
    obtain ⟨n, hn, rfl⟩ := exists_eq_symbol (h c List.mem_cons_self)
    obtain ⟨sextets, hlt, rfl⟩ := ih fun d hd => h d (List.mem_cons_of_mem _ hd)
    exact ⟨n :: sextets, List.forall_mem_cons.2 ⟨hn, hlt⟩, rfl⟩

/-- Six bits are read from their symbol. -/
theorem bits?_symbol : ∀ n < 64, bits? (symbol n).toUInt8 = some n := by decide

/-- Only the symbol of `n` has the bits `n`. -/
theorem eq_symbol_of_bits? {b : UInt8} {n : Nat} (h : bits? b = some n) :
    n < 64 ∧ b = (symbol n).toUInt8 := by
  -- The bits of all 256 bytes are compared with the alphabet.
  have hall : ∀ m < 256, ∀ n ∈ bits? (UInt8.ofNat m),
      n < 64 ∧ UInt8.ofNat m = (symbol n).toUInt8 := by
    decide +kernel
  have hb : UInt8.ofNat b.toNat = b := UInt8.ofNat_toNat
  have := hall b.toNat b.toNat_lt n (by rw [hb]; exact h)
  rwa [hb] at this

/-- No symbol is the padding character. -/
theorem isPad_symbol : ∀ n < 64, isPad (symbol n).toUInt8 = false := by decide

/-- The only padding byte is the one of the padding character. -/
theorem isPad_iff (b : UInt8) : isPad b = true ↔ b = pad.toUInt8 := by
  rw [isPad, decide_eq_true_eq]
  exact ⟨fun h => UInt8.toNat_inj.1 h, fun h => h ▸ rfl⟩

/-- Bytes have the bits of some sextets iff they are the symbols of these sextets. -/
theorem bitsFrom_eq_ok_iff (offset : Nat) (group : List UInt8) (sextets : List Nat) :
    bitsFrom offset group = .ok sextets ↔
      (∀ n ∈ sextets, n < 64) ∧ group = sextets.map fun n => (symbol n).toUInt8 := by
  induction group generalizing offset sextets with
  | nil =>
    rw [bitsFrom]
    constructor
    · intro h
      cases h
      simp
    · rintro ⟨-, h⟩
      rw [List.map_eq_nil_iff.1 h.symm]
  | cons b group ih =>
    simp only [bitsFrom, bitsAt]
    constructor
    · intro h
      -- The first byte that is no symbol ends the reading, so that all of them are symbols.
      cases hb : bits? b with
      | none => simp [hb, bind, Except.bind] at h
      | some n =>
        cases hg : bitsFrom (offset + 1) group with
        | error fault => simp [hb, hg, bind, Except.bind] at h
        | ok ns =>
          simp only [hb, hg, bind, Except.bind, pure, Except.pure, Except.ok.injEq] at h
          obtain ⟨hlt, hmap⟩ := (ih _ _).1 hg
          obtain ⟨hn, hsym⟩ := eq_symbol_of_bits? hb
          subst h
          refine ⟨List.forall_mem_cons.2 ⟨hn, hlt⟩, ?_⟩
          rw [List.map_cons, hsym, hmap]
    · rintro ⟨hlt, hmap⟩
      cases sextets with
      | nil => simp at hmap
      | cons n ns =>
        rw [List.map_cons, List.cons.injEq] at hmap
        have hn : n < 64 := hlt n List.mem_cons_self
        have hg : bitsFrom (offset + 1) group = .ok ns :=
          (ih _ _).2 ⟨fun m hm => hlt m (List.mem_cons_of_mem _ hm), hmap.2⟩
        simp [hmap.1, bits?_symbol n hn, hg, bind, Except.bind, pure, Except.pure]

/-! ### Groups of sextets -/

/-- The bytes that the sextets of a last group spell, if the bits left over are zero. -/
def spelled : List Nat → Option (List UInt8)
  | [w, x] =>
    if joined [w, x] % 0x10 = 0 then some [UInt8.ofNat (joined [w, x] / 0x10)] else none
  | [w, x, y] =>
    if joined [w, x, y] % 0x4 = 0 then
      some [UInt8.ofNat (joined [w, x, y] / 0x400), UInt8.ofNat (joined [w, x, y] / 0x4)]
    else none
  | [w, x, y, z] =>
    some [UInt8.ofNat (joined [w, x, y, z] / 0x10000), UInt8.ofNat (joined [w, x, y, z] / 0x100),
      UInt8.ofNat (joined [w, x, y, z])]
  | _ => none

/-- Sextets as symbols, padded to a full group. -/
def padded (sextets : List Nat) : List Char :=
  sextets.map symbol ++ List.replicate (4 - sextets.length) pad

/-- Two symbols without bits to spare encode the one byte that they spell. -/
theorem encode_joined_two {w x : Nat} (hw : w < 64) (hx : x < 64)
    (h0 : joined [w, x] % 0x10 = 0) :
    encode [UInt8.ofNat (joined [w, x] / 0x10)] = [symbol w, symbol x, pad, pad] := by
  simp only [joined, List.foldl_cons, List.foldl_nil] at h0 ⊢
  simp only [encode, UInt8.toNat_ofNat']
  -- The twelve bits of the two sextets are named before `omega` takes them apart.
  generalize hn : (0 * 0x40 + w) * 0x40 + x = n at h0 ⊢
  have h1 : n / 0x10 % 2 ^ 8 * 0x10 / 0x40 = w := by omega
  have h2 : n / 0x10 % 2 ^ 8 * 0x10 % 0x40 = x := by omega
  rw [h1, h2]

/-- Three symbols without bits to spare encode the two bytes that they spell. -/
theorem encode_joined_three {w x y : Nat} (hw : w < 64) (hx : x < 64) (hy : y < 64)
    (h0 : joined [w, x, y] % 0x4 = 0) :
    encode [UInt8.ofNat (joined [w, x, y] / 0x400), UInt8.ofNat (joined [w, x, y] / 0x4)] =
      [symbol w, symbol x, symbol y, pad] := by
  simp only [joined, List.foldl_cons, List.foldl_nil] at h0 ⊢
  simp only [encode, UInt8.toNat_ofNat']
  generalize hn : ((0 * 0x40 + w) * 0x40 + x) * 0x40 + y = n at h0 ⊢
  have h1 : (n / 0x400 % 2 ^ 8 * 0x100 + n / 0x4 % 2 ^ 8) * 0x4 = n := by omega
  have h2 : n / 0x1000 = w := by omega
  have h3 : n / 0x40 % 0x40 = x := by omega
  have h4 : n % 0x40 = y := by omega
  rw [h1, h2, h3, h4]

/-- Four symbols encode the three bytes that they spell, and what follows is encoded by itself. -/
theorem encode_joined_four {w x y z : Nat} (hw : w < 64) (hx : x < 64) (hy : y < 64)
    (hz : z < 64) (rest : List UInt8) :
    encode (UInt8.ofNat (joined [w, x, y, z] / 0x10000) ::
        UInt8.ofNat (joined [w, x, y, z] / 0x100) :: UInt8.ofNat (joined [w, x, y, z]) :: rest) =
      symbol w :: symbol x :: symbol y :: symbol z :: encode rest := by
  simp only [joined, List.foldl_cons, List.foldl_nil]
  simp only [encode, UInt8.toNat_ofNat']
  generalize hn : (((0 * 0x40 + w) * 0x40 + x) * 0x40 + y) * 0x40 + z = n
  have h1 : n / 0x10000 % 2 ^ 8 * 0x10000 + n / 0x100 % 2 ^ 8 * 0x100 + n % 2 ^ 8 = n := by omega
  have h2 : n / 0x40000 = w := by omega
  have h3 : n / 0x1000 % 0x40 = x := by omega
  have h4 : n / 0x40 % 0x40 = y := by omega
  have h5 : n % 0x40 = z := by omega
  rw [h1, h2, h3, h4, h5]

/-- What sextets spell is encoded as these sextets. -/
theorem encode_of_spelled {sextets : List Nat} {bytes : List UInt8}
    (hlt : ∀ n ∈ sextets, n < 64) (h : spelled sextets = some bytes) :
    encode bytes = padded sextets := by
  unfold spelled at h
  split at h
  · next w x =>
    simp only [List.forall_mem_cons] at hlt
    split at h
    · next h0 => rw [← Option.some.inj h, encode_joined_two hlt.1 hlt.2.1 h0]; rfl
    · cases h
  · next w x y =>
    simp only [List.forall_mem_cons] at hlt
    split at h
    · next h0 => rw [← Option.some.inj h, encode_joined_three hlt.1 hlt.2.1 hlt.2.2.1 h0]; rfl
    · cases h
  · next w x y z =>
    simp only [List.forall_mem_cons] at hlt
    rw [← Option.some.inj h, encode_joined_four hlt.1 hlt.2.1 hlt.2.2.1 hlt.2.2.2.1]
    rfl
  · cases h

/-- Four sextets in front of a text spell three bytes. -/
theorem encode_cons_cons_cons {a b c : UInt8} {rest : List UInt8} {sextets : List Nat}
    (hlt : ∀ n ∈ sextets, n < 64) (h : spelled sextets = some [a, b, c]) :
    encode (a :: b :: c :: rest) = sextets.map symbol ++ encode rest := by
  unfold spelled at h
  split at h
  · split at h <;> cases h
  · split at h <;> cases h
  · next w x y z =>
    simp only [List.forall_mem_cons] at hlt
    cases h
    exact encode_joined_four hlt.1 hlt.2.1 hlt.2.2.1 hlt.2.2.2.1 rest
  · cases h

/-- One, two or three bytes are spelled by some sextets. -/
theorem exists_spelled {bytes : List UInt8} (hne : bytes ≠ []) (hle : bytes.length ≤ 3) :
    ∃ sextets, (∀ n ∈ sextets, n < 64) ∧ spelled sextets = some bytes := by
  -- A group of each length has its own shifts: the bytes are cut at multiples of six bits from the
  -- front, and the bits that are left over are zero.
  match bytes with
  | [] => exact absurd rfl hne
  | [a] =>
    have ha := a.toNat_lt
    generalize hn : a.toNat * 0x10 = n
    have hjoined : joined [n / 0x40, n % 0x40] = n := by
      simp only [joined, List.foldl_cons, List.foldl_nil]
      omega
    refine ⟨[n / 0x40, n % 0x40], ?_, ?_⟩
    · simp only [List.forall_mem_cons, List.not_mem_nil, false_implies, implies_true, and_true]
      omega
    · have h1 : n / 0x10 = a.toNat := by omega
      rw [spelled, hjoined, if_pos (by omega), h1, UInt8.ofNat_toNat]
  | [a, b] =>
    have ha := a.toNat_lt
    have hb := b.toNat_lt
    generalize hn : (a.toNat * 0x100 + b.toNat) * 0x4 = n
    have hjoined : joined [n / 0x1000, n / 0x40 % 0x40, n % 0x40] = n := by
      simp only [joined, List.foldl_cons, List.foldl_nil]
      omega
    refine ⟨[n / 0x1000, n / 0x40 % 0x40, n % 0x40], ?_, ?_⟩
    · simp only [List.forall_mem_cons, List.not_mem_nil, false_implies, implies_true, and_true]
      omega
    · have h1 : n / 0x400 = a.toNat := by omega
      have h2 : UInt8.ofNat (n / 0x4) = b :=
        UInt8.toNat_inj.1 (by rw [UInt8.toNat_ofNat']; omega)
      rw [spelled, hjoined, if_pos (by omega), h1, h2, UInt8.ofNat_toNat]
  | [a, b, c] =>
    have ha := a.toNat_lt
    have hb := b.toNat_lt
    have hc := c.toNat_lt
    generalize hn : a.toNat * 0x10000 + b.toNat * 0x100 + c.toNat = n
    have hjoined : joined [n / 0x40000, n / 0x1000 % 0x40, n / 0x40 % 0x40, n % 0x40] = n := by
      simp only [joined, List.foldl_cons, List.foldl_nil]
      omega
    refine ⟨[n / 0x40000, n / 0x1000 % 0x40, n / 0x40 % 0x40, n % 0x40], ?_, ?_⟩
    · simp only [List.forall_mem_cons, List.not_mem_nil, false_implies, implies_true, and_true]
      omega
    · have h1 : n / 0x10000 = a.toNat := by omega
      have h2 : UInt8.ofNat (n / 0x100) = b :=
        UInt8.toNat_inj.1 (by rw [UInt8.toNat_ofNat']; omega)
      have h3 : UInt8.ofNat n = c := UInt8.toNat_inj.1 (by rw [UInt8.toNat_ofNat']; omega)
      rw [spelled, hjoined, h1, h2, h3, UInt8.ofNat_toNat]
  | _ :: _ :: _ :: _ :: _ =>
    simp only [List.length_cons] at hle
    omega

/-! ### The last group -/

/-- A last group of symbols and padding decodes to what its sextets spell. -/
theorem decodeLast_padded {offset : Nat} {sextets : List Nat} {bytes : List UInt8}
    (hlt : ∀ n ∈ sextets, n < 64) (h : spelled sextets = some bytes) :
    decodeLast offset ((padded sextets).map Char.toUInt8) = .ok bytes := by
  have hbits : bitsFrom offset (sextets.map fun n => (symbol n).toUInt8) = .ok sextets :=
    (bitsFrom_eq_ok_iff _ _ _).2 ⟨hlt, rfl⟩
  have hpad : isPad pad.toUInt8 = true := rfl
  -- Two symbols carry one byte, three carry two and four carry three; only the shorter groups have
  -- bits left over, which are zero by what they spell.
  unfold spelled at h
  split at h
  · next w x =>
    simp only [List.forall_mem_cons, List.map_cons, List.map_nil] at hlt hbits
    split at h
    · next h0 =>
      have h0 : joined [w, x] % 16 = 0 := h0
      obtain rfl := Option.some.inj h
      simp [padded, decodeLast, isPad_symbol w hlt.1, isPad_symbol x hlt.2.1, hpad, hbits, h0,
        bind, Except.bind, pure, Except.pure]
    · cases h
  · next w x y =>
    simp only [List.forall_mem_cons, List.map_cons, List.map_nil] at hlt hbits
    split at h
    · next h0 =>
      have h0 : joined [w, x, y] % 4 = 0 := h0
      obtain rfl := Option.some.inj h
      simp [padded, decodeLast, isPad_symbol w hlt.1, isPad_symbol x hlt.2.1,
        isPad_symbol y hlt.2.2.1, hpad, hbits, h0, bind, Except.bind, pure, Except.pure]
    · cases h
  · next w x y z =>
    simp only [List.forall_mem_cons, List.map_cons, List.map_nil] at hlt hbits
    obtain rfl := Option.some.inj h
    simp [padded, decodeLast, isPad_symbol w hlt.1, isPad_symbol x hlt.2.1,
      isPad_symbol y hlt.2.2.1, isPad_symbol z hlt.2.2.2.1, hbits, bind, Except.bind, pure,
      Except.pure]
  · cases h

/-- What the checks of a last group let pass is spelled by its sextets. -/
theorem spelled_of_last {sextets : List Nat} {bytes : List UInt8} {e₁ e₂ : Fault}
    (h2 : 2 ≤ sextets.length) (h4 : sextets.length ≤ 4)
    (h : (match sextets.length with
      | 2 => if joined sextets % 0x10 ≠ 0 then Except.error e₁
        else Except.ok [UInt8.ofNat (joined sextets / 0x10)]
      | 3 => if joined sextets % 0x4 ≠ 0 then Except.error e₂
        else Except.ok [UInt8.ofNat (joined sextets / 0x400),
          UInt8.ofNat (joined sextets / 0x4)]
      | _ => Except.ok [UInt8.ofNat (joined sextets / 0x10000),
          UInt8.ofNat (joined sextets / 0x100), UInt8.ofNat (joined sextets)]) =
        Except.ok bytes) :
    spelled sextets = some bytes := by
  -- The bounds on the length leave two, three or four sextets.
  match sextets with
  | [w, x] =>
    by_cases h0 : joined [w, x] % 16 = 0
    · simpa [spelled, h0] using h
    · simp [h0] at h
  | [w, x, y] =>
    by_cases h0 : joined [w, x, y] % 4 = 0
    · simpa [spelled, h0] using h
    · simp [h0] at h
  | [w, x, y, z] => simpa [spelled] using h
  | [] | [_] => simp at h2
  | _ :: _ :: _ :: _ :: _ :: _ =>
    simp only [List.length_cons] at h4
    omega

/-- What stands behind the symbols of a group starts with padding. -/
theorem isPad_of_mem_head?_drop (group : List UInt8) :
    ∀ b ∈ (group.drop (group.takeWhile (!isPad ·)).length).head?, isPad b := by
  induction group with
  | nil => simp
  | cons c group ih =>
    by_cases hc : isPad c
    · simp [hc]
    · simpa [hc] using ih

/-- A group with nothing but padding behind its symbols. -/
theorem eq_append_replicate {group symbols : List UInt8}
    (hsym : group.takeWhile (!isPad ·) = symbols)
    (hpad : ∀ b ∈ (group.drop symbols.length).tail, isPad b) :
    group = symbols ++ List.replicate (group.length - symbols.length) pad.toUInt8 := by
  have hpre : symbols <+: group := hsym ▸ List.takeWhile_prefix _
  have hhead := isPad_of_mem_head?_drop group
  rw [hsym] at hhead
  obtain ⟨padding, rfl⟩ := hpre
  rw [List.drop_left] at hpad hhead
  -- `symbols` ends at the first pad, and the rest was checked by the decoder.
  have hall : ∀ b ∈ padding, b = pad.toUInt8 := by
    intro b hb
    cases padding with
    | nil => cases hb
    | cons c rest =>
      rcases List.mem_cons.1 hb with rfl | hb
      · exact (isPad_iff b).1 (hhead b rfl)
      · exact (isPad_iff b).1 (hpad b hb)
  rw [List.length_append, Nat.add_sub_cancel_left]
  congr 1
  exact List.eq_replicate_of_mem hall

/-- Only symbols with their padding pass as a last group. -/
theorem exists_spelled_of_decodeLast {offset : Nat} {group bytes : List UInt8}
    (h : decodeLast offset group = .ok bytes) :
    ∃ sextets, (∀ n ∈ sextets, n < 64) ∧ spelled sextets = some bytes ∧
      group = (padded sextets).map Char.toUInt8 := by
  unfold decodeLast at h
  simp only [bind, Except.bind, pure, Except.pure, throw, throwThe, MonadExceptOf.throw] at h
  generalize hsym : group.takeWhile (fun b => !isPad b) = symbols at h
  have hsize : symbols.length ≤ group.length := hsym ▸ (List.takeWhile_prefix _).length_le
  cases hbits : bitsFrom offset symbols with
  | error e => simp [hbits] at h
  | ok sextets =>
    -- The symbols of the group are those of its sextets, so the group is full once padded.
    obtain ⟨hlt, hmap⟩ := (bitsFrom_eq_ok_iff _ _ _).1 hbits
    have hlen : sextets.length = symbols.length := by rw [hmap, List.length_map]
    have hgroup (hpad : ∀ b ∈ (group.drop symbols.length).tail, isPad b)
        (hfull : group.length = 4) : group = (padded sextets).map Char.toUInt8 := by
      rw [eq_append_replicate hsym hpad, hfull, padded, hlen, hmap]
      simp
    simp only [hbits] at h
    split at h
    · split at h <;> cases h
    · next h2 =>
      -- With or without padding, a group that passes is full.
      split at h
      · next b rest hdrop =>
        split at h
        · cases h
        · next hany =>
          split at h
          · cases h
          · next hfull =>
            rw [Decidable.not_not] at hfull
            have hpad : ∀ b ∈ (group.drop symbols.length).tail, isPad b := by
              rw [hdrop]
              simpa using hany
            exact ⟨sextets, hlt, spelled_of_last (by omega) (by omega) h, hgroup hpad hfull⟩
      · next hdrop =>
        split at h
        · cases h
        · next hfull =>
          rw [Decidable.not_not] at hfull
          exact ⟨sextets, hlt, spelled_of_last (by omega) (by omega) h,
            hgroup (by simp [hdrop]) hfull⟩

/-! ### Whole texts -/

/-- Three bytes, or what is left of them, take up four characters. -/
theorem length_encode (bytes : List UInt8) :
    (encode bytes).length = 4 * ((bytes.length + 2) / 3) := by
  fun_induction encode bytes with
  | case1 => rfl
  | case2 | case3 => simp
  | case4 a b c rest n ih =>
    simp only [List.length_cons, ih]
    omega

/-- A full group in front of a text adds three bytes. -/
theorem decodeGroups_append {offset : Nat} {sextets : List Nat} {a b c : UInt8}
    {text tail : List UInt8} (hlt : ∀ n ∈ sextets, n < 64)
    (hspelled : spelled sextets = some [a, b, c]) (hne : text ≠ [])
    (h : decodeGroups (offset + 4) text = .ok tail) :
    decodeGroups offset ((sextets.map fun n => (symbol n).toUInt8) ++ text) =
      .ok (a :: b :: c :: tail) := by
  have hbits := (bitsFrom_eq_ok_iff offset _ _).2 ⟨hlt, rfl⟩
  -- Something stands behind the group, so that it is not taken for the last one.
  obtain ⟨e, rest, rfl⟩ := List.exists_cons_of_ne_nil hne
  unfold spelled at hspelled
  split at hspelled
  · split at hspelled <;> cases hspelled
  · split at hspelled <;> cases hspelled
  · next w x y z =>
    simp only [List.map_cons, List.map_nil] at hbits
    cases hspelled
    simp only [List.map_cons, List.map_nil, List.cons_append, List.nil_append, decodeGroups,
      hbits, h]
    rfl
  · cases hspelled

/-- A text of one group is a last group. -/
theorem decodeGroups_eq_decodeLast (offset : Nat) {text : List UInt8} (hne : text ≠ [])
    (hle : text.length ≤ 4) : decodeGroups offset text = decodeLast offset text := by
  match text with
  | [] => exact absurd rfl hne
  | [_] | [_, _] | [_, _, _] | [_, _, _, _] => rfl
  | _ :: _ :: _ :: _ :: _ :: _ =>
    simp only [List.length_cons] at hle
    omega

/-- The last group is decoded as it was encoded. -/
theorem decodeGroups_encode_of_length_le (offset : Nat) {bytes : List UInt8} (hne : bytes ≠ [])
    (hle : bytes.length ≤ 3) :
    decodeGroups offset ((encode bytes).map Char.toUInt8) = .ok bytes := by
  obtain ⟨sextets, hlt, hspelled⟩ := exists_spelled hne hle
  have hpos : 0 < bytes.length := List.length_pos_of_ne_nil hne
  have hlen : ((encode bytes).map Char.toUInt8).length = 4 := by
    rw [List.length_map, length_encode]
    omega
  rw [decodeGroups_eq_decodeLast offset (List.ne_nil_of_length_pos (by omega)) (by omega),
    encode_of_spelled hlt hspelled]
  exact decodeLast_padded hlt hspelled

/-- Encoded bytes decode to themselves. -/
theorem decodeGroups_encode (offset : Nat) (bytes : List UInt8) :
    decodeGroups offset ((encode bytes).map Char.toUInt8) = .ok bytes := by
  match bytes with
  | [] => rfl
  | [_] | [_, _] | [_, _, _] => exact decodeGroups_encode_of_length_le offset (by simp) (by simp)
  | a :: b :: c :: d :: rest =>
    obtain ⟨sextets, hlt, hspelled⟩ := exists_spelled (List.cons_ne_nil a [b, c]) (by simp)
    have hne : (encode (d :: rest)).map Char.toUInt8 ≠ [] := by
      intro h
      have hlen := congrArg List.length h
      rw [List.length_map, length_encode, List.length_cons, List.length_nil] at hlen
      omega
    rw [encode_cons_cons_cons hlt hspelled, List.map_append, List.map_map]
    exact decodeGroups_append hlt hspelled hne (decodeGroups_encode (offset + 4) (d :: rest))

/-- Only encodings decode. -/
theorem eq_encode_of_decodeGroups {offset : Nat} {text bytes : List UInt8}
    (h : decodeGroups offset text = .ok bytes) : text = (encode bytes).map Char.toUInt8 := by
  fun_induction decodeGroups offset text generalizing bytes with
  | case1 offset =>
    cases h
    rfl
  | case2 offset a b c d e rest ih =>
    cases hbits : bitsFrom offset [a, b, c, d] with
    | error fault => simp [hbits, bind, Except.bind] at h
    | ok sextets =>
      cases hrest : decodeGroups (offset + 4) (e :: rest) with
      | error fault => simp [hbits, hrest, bind, Except.bind] at h
      | ok tail =>
        obtain ⟨hlt, hmap⟩ := (bitsFrom_eq_ok_iff _ _ _).1 hbits
        simp only [hbits, hrest, bind, Except.bind, pure, Except.pure, Except.ok.injEq] at h
        -- Four symbols have four sextets, and these spell three bytes whatever they are.
        have hspelled : spelled sextets = some [UInt8.ofNat (joined sextets / 0x10000),
            UInt8.ofNat (joined sextets / 0x100), UInt8.ofNat (joined sextets)] := by
          have hlen := congrArg List.length hmap
          match sextets with
          | [w, x, y, z] => rfl
          | [] | [_] | [_, _] | [_, _, _] | _ :: _ :: _ :: _ :: _ :: _ => simp at hlen
        rw [← h, encode_cons_cons_cons hlt hspelled, List.map_append, ← ih hrest, List.map_map]
        exact congrArg (· ++ e :: rest) hmap
  | case3 offset group hne hshort =>
    obtain ⟨sextets, hlt, hspelled, hgroup⟩ := exists_spelled_of_decodeLast h
    rw [hgroup, encode_of_spelled hlt hspelled]

/-- **Decoding inverts encoding.**  A text decodes to some bytes iff it is their encoding. -/
theorem decode_eq_ok_iff_encode (text bytes : List UInt8) :
    decode text = .ok bytes ↔ text = (encode bytes).map Char.toUInt8 := by
  rw [decode]
  split
  · next h =>
    constructor
    · intro h
      cases h
    · rintro rfl
      -- The early check concerns texts with one symbol too many, and encodings are full groups.
      rw [List.length_map, length_encode] at h
      omega
  · constructor
    · exact eq_encode_of_decodeGroups
    · rintro rfl
      exact decodeGroups_encode 0 bytes

/-! ### Canonical payloads -/

/-- Symbols of the alphabet, padded by at most two pads to full groups of four, where the bits of
    the last symbol that the padding leaves unused are zero. -/
def IsCanonical (payload : List Char) : Prop :=
  ∃ symbols pads, payload = symbols ++ List.replicate pads pad ∧ pads ≤ 2 ∧
    4 ∣ payload.length ∧ (∀ c ∈ symbols, c ∈ alphabet) ∧
    ∀ c ∈ symbols.getLast?, 4 ^ pads ∣ alphabet.idxOf c

/-- What is encoded is canonical. -/
theorem isCanonical_encode (bytes : List UInt8) : IsCanonical (encode bytes) := by
  fun_induction encode bytes with
  | case1 => exact ⟨[], 0, by simp⟩
  | case2 a n =>
    have ha := a.toNat_lt
    have h1 : n / 0x40 < 64 := by omega
    have h2 : n % 0x40 < 64 := by omega
    have h3 : 4 ^ 2 ∣ n % 0x40 := by omega
    refine ⟨[symbol (n / 0x40), symbol (n % 0x40)], 2, rfl, by omega, by simp, ?_, ?_⟩
    · rw [List.forall_mem_cons, List.forall_mem_singleton]
      exact ⟨symbol_mem_alphabet h1, symbol_mem_alphabet h2⟩
    · intro c hc
      obtain rfl : symbol (n % 0x40) = c := Option.some.inj hc
      rw [idxOf_symbol _ h2]
      exact h3
  | case3 a b n =>
    have ha := a.toNat_lt
    have hb := b.toNat_lt
    have h1 : n / 0x1000 < 64 := by omega
    have h2 : n / 0x40 % 0x40 < 64 := by omega
    have h3 : n % 0x40 < 64 := by omega
    have h4 : 4 ^ 1 ∣ n % 0x40 := by omega
    refine ⟨[symbol (n / 0x1000), symbol (n / 0x40 % 0x40), symbol (n % 0x40)], 1, rfl,
      by omega, by simp, ?_, ?_⟩
    · rw [List.forall_mem_cons, List.forall_mem_cons, List.forall_mem_singleton]
      exact ⟨symbol_mem_alphabet h1, symbol_mem_alphabet h2, symbol_mem_alphabet h3⟩
    · intro c hc
      obtain rfl : symbol (n % 0x40) = c := Option.some.inj hc
      rw [idxOf_symbol _ h3]
      exact h4
  | case4 a b c rest n ih =>
    obtain ⟨symbols, pads, hrest, hpads, hlen, hmem, hlast⟩ := ih
    have ha := a.toNat_lt
    have hb := b.toNat_lt
    have hc := c.toNat_lt
    have h1 : n / 0x40000 < 64 := by omega
    have h2 : n / 0x1000 % 0x40 < 64 := by omega
    have h3 : n / 0x40 % 0x40 < 64 := by omega
    have h4 : n % 0x40 < 64 := by omega
    refine ⟨symbol (n / 0x40000) :: symbol (n / 0x1000 % 0x40) :: symbol (n / 0x40 % 0x40) ::
      symbol (n % 0x40) :: symbols, pads, by rw [hrest]; rfl, hpads, ?_, ?_, ?_⟩
    · simp only [List.length_cons]
      omega
    · rw [List.forall_mem_cons, List.forall_mem_cons, List.forall_mem_cons, List.forall_mem_cons]
      exact ⟨symbol_mem_alphabet h1, symbol_mem_alphabet h2, symbol_mem_alphabet h3,
        symbol_mem_alphabet h4, hmem⟩
    -- The last symbol is that of the rest, unless there is none, and then there is no padding.
    · cases symbols with
      | nil =>
        have h0 : pads = 0 := by
          rw [hrest, List.nil_append, List.length_replicate] at hlen
          omega
        simp [h0]
      | cons d symbols => simpa only [List.getLast?_cons_cons] using hlast

/-- Sextets whose unused bits are zero are the encoding of some bytes. -/
theorem exists_encode_eq {pads : Nat} (hpads : pads ≤ 2) : ∀ sextets : List Nat,
    (∀ n ∈ sextets, n < 64) → 4 ∣ sextets.length + pads → (∀ n ∈ sextets.getLast?, 4 ^ pads ∣ n) →
    ∃ bytes, encode bytes = sextets.map symbol ++ List.replicate pads pad
  | [], _, hlen, _ => by
    -- Padding alone is no group.
    have h0 : pads = 0 := by
      rw [List.length_nil] at hlen
      omega
    exact ⟨[], by simp [h0, encode]⟩
  | [w], _, hlen, _ => by
    simp only [List.length_cons, List.length_nil] at hlen
    omega
  | [w, x], hlt, hlen, hlast => by
    have h2 : pads = 2 := by
      simp only [List.length_cons, List.length_nil] at hlen
      omega
    subst h2
    have h0 : joined [w, x] % 0x10 = 0 := by
      have := hlast x rfl
      simp only [joined, List.foldl_cons, List.foldl_nil]
      omega
    exact ⟨_, encode_of_spelled hlt (if_pos h0)⟩
  | [w, x, y], hlt, hlen, hlast => by
    have h1 : pads = 1 := by
      simp only [List.length_cons, List.length_nil] at hlen
      omega
    subst h1
    have h0 : joined [w, x, y] % 0x4 = 0 := by
      have := hlast y rfl
      simp only [joined, List.foldl_cons, List.foldl_nil]
      omega
    exact ⟨_, encode_of_spelled hlt (if_pos h0)⟩
  | w :: x :: y :: z :: rest, hlt, hlen, hlast => by
    simp only [List.forall_mem_cons] at hlt
    obtain ⟨hw, hx, hy, hz, hrest⟩ := hlt
    have hlen' : 4 ∣ rest.length + pads := by
      simp only [List.length_cons] at hlen
      omega
    have hlast' : ∀ n ∈ rest.getLast?, 4 ^ pads ∣ n := by
      cases rest with
      | nil => simp
      | cons n rest => simpa only [List.getLast?_cons_cons] using hlast
    obtain ⟨bytes, hbytes⟩ := exists_encode_eq hpads rest hrest hlen' hlast'
    exact ⟨_, (encode_joined_four hw hx hy hz bytes).trans (by rw [hbytes]; rfl)⟩

/-- **The encodings are the canonical payloads.** -/
theorem isCanonical_iff (payload : List Char) :
    IsCanonical payload ↔ ∃ bytes, payload = encode bytes := by
  constructor
  · rintro ⟨symbols, pads, rfl, hpads, hlen, hmem, hlast⟩
    obtain ⟨sextets, hlt, rfl⟩ := exists_eq_map_symbol hmem
    rw [List.length_append, List.length_map, List.length_replicate] at hlen
    -- The last symbol stands at the place of its bits in the alphabet.
    have hlast' : ∀ n ∈ sextets.getLast?, 4 ^ pads ∣ n := by
      intro n hn
      have h := hlast (symbol n) (by rw [List.getLast?_map, hn]; rfl)
      rwa [idxOf_symbol n (hlt n (List.mem_of_getLast? hn))] at h
    obtain ⟨bytes, hbytes⟩ := exists_encode_eq hpads sextets hlt hlen hlast'
    exact ⟨bytes, hbytes.symm⟩
  · rintro ⟨bytes, rfl⟩
    exact isCanonical_encode bytes

/-- The symbols take up one byte each. -/
theorem utf8Size_of_mem_alphabet : ∀ c ∈ alphabet, c.utf8Size = 1 := by
  have hall : alphabet.all (fun c => c.utf8Size == 1) = true := rfl
  intro c hc
  exact beq_iff_eq.1 (List.all_eq_true.1 hall c hc)

/-- An encoding takes up one byte a symbol. -/
theorem utf8Size_of_mem_encode {bytes : List UInt8} {c : Char} (h : c ∈ encode bytes) :
    c.utf8Size = 1 := by
  obtain ⟨symbols, pads, hpayload, -, -, hmem, -⟩ := isCanonical_encode bytes
  rw [hpayload, List.mem_append] at h
  rcases h with h | h
  · exact utf8Size_of_mem_alphabet c (hmem c h)
  · rw [List.eq_of_mem_replicate h]
    rfl

end MachineTuning.Base64
