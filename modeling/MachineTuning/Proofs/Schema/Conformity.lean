import MachineTuning.Proofs.Schema.ReadBack

namespace MachineTuning

/-!
# Conformity — which JSON values a schema reads

A schema reads the values that have the form of its type, and the form says what is read.  The
forms are relations between a value and what it stands for, said without the reader:

* `Json.IsText`, `Json.IsFlag`, `Json.IsInt32`, `Json.IsUInt32`, `Json.IsList`, `Json.IsLabels`,
  `Json.IsChoice` — the forms of values without members of their own names;
* `Json.IsRecord` — records, as an object or as the array of their parts;
* `Json.Required`, `Json.Defaulted`, `Json.Optional` — what may stand for a part.

`Schema.reads_record_iff` reduces the reading of a record to the reading of its parts, one law
for each of the others does the same, and `Fields.completes_required` and its like take a record
apart member by member.
-/

/-! ### Forms -/

namespace Json

variable {α : Type}

/-- The member of an object under a key; of several the last. -/
def memberAt? (members : List (String × Json)) (key : String) : Option Json :=
  members.reverse.lookup key

/-- A value is a text. -/
def IsText (v : Json) (s : String) : Prop :=
  v = .text s

/-- A value is a truth value. -/
def IsFlag (v : Json) (b : Bool) : Prop :=
  v = .boolean b

/-- An integer in the range of signed 32-bit words, and not a real number that is whole. -/
def IsInt32 (v : Json) (n : Int32) : Prop :=
  ∃ i : Int, v = .ofInt i ∧ -0x80000000 ≤ i ∧ i < 0x80000000 ∧ n.toInt = i

/-- An integer in the range of unsigned 32-bit words, and not a real number that is whole. -/
def IsUInt32 (v : Json) (n : UInt32) : Prop :=
  ∃ i : Int, v = .ofInt i ∧ 0 ≤ i ∧ i < 0x100000000 ∧ (n.toNat : Int) = i

/-- An array whose items have a form each. -/
def IsList (P : Json → α → Prop) (v : Json) (as : List α) : Prop :=
  ∃ items, v = .array items ∧ List.Forall₂ P items as

/-- An object of texts. -/
def IsLabels (v : Json) (m : KeyMap String) : Prop :=
  ∃ members, v = .object members ∧ ∀ key, memberAt? members key = (m.get? key).map .text

/-- The name of a choice: a text, or an object whose only member has that name and holds null. -/
inductive IsChoice (name : α → String) (a : α) : Json → Prop
  | text : IsChoice name a (.text (name a))
  | object {members : List (String × Json)}
      (h : ∀ key, memberAt? members key = if key = name a then some .null else none) :
      IsChoice name a (.object members)

/-- A value with parts under these keys that satisfy `P`: an object, whatever other members it
    has, or an array of its first parts in order, of which the first `least` must be there. -/
inductive IsRecord (keys : List String) (least : Nat) (P : (String → Option Json) → Prop) :
    Json → Prop
  | object {members : List (String × Json)} (h : P (memberAt? members)) :
      IsRecord keys least P (.object members)
  | array {items : List Json} (lower : least ≤ items.length) (upper : items.length ≤ keys.length)
      (h : P fun key => items[keys.idxOf key]?) : IsRecord keys least P (.array items)

/-- A part that must be there. -/
def Required (P : Json → α → Prop) (v? : Option Json) (a : α) : Prop :=
  ∃ v, v? = some v ∧ P v a

/-- A part that may be missing, but not null unless its form allows it. -/
inductive Defaulted (default : α) (P : Json → α → Prop) : Option Json → α → Prop
  | missing : Defaulted default P none default
  | given {v : Json} {a : α} (h : P v a) : Defaulted default P (some v) a

/-- A part that may be missing or null. -/
inductive Optional (P : Json → α → Prop) : Option Json → Option α → Prop
  | missing : Optional P none none
  | null : Optional P (some .null) none
  | given {v : Json} {a : α} (hv : v ≠ .null) (h : P v a) : Optional P (some v) (some a)

/-- Records whose parts are asked for the same are the same. -/
theorem isRecord_congr {keys : List String} {least : Nat} {P Q : (String → Option Json) → Prop}
    (h : ∀ part, P part ↔ Q part) {v : Json} :
    IsRecord keys least P v ↔ IsRecord keys least Q v := by
  have heq : P = Q := funext fun part => propext (h part)
  rw [heq]

/-- In the order of visiting, an object has the same members. -/
theorem lookup_visitingOrder (members : List (String × Json)) (key : String) :
    (visitingOrder members).lookup key = memberAt? members key :=
  KeyMap.lookup_ofList members key

end Json

/-! ### Values without members of their own -/

namespace Schema

variable {α : Type}

/-- What a schema reads, as a form. -/
def Reads (schema : Schema α) (v : Json) (a : α) : Prop :=
  schema.ofJson v = .ok a

/-- The schema of texts takes texts. -/
theorem reads_text : text.Reads = Json.IsText := by
  funext v s
  refine propext ⟨fun h => ?_, fun h => ?_⟩
  · cases v <;> cases h
    rfl
  · rw [Json.IsText] at h
    rw [h]
    rfl

/-- The schema of truth values takes truth values. -/
theorem reads_flag : flag.Reads = Json.IsFlag := by
  funext v b
  refine propext ⟨fun h => ?_, fun h => ?_⟩
  · cases v <;> cases h
    rfl
  · rw [Json.IsFlag] at h
    rw [h]
    rfl

/-- The schema of signed words takes the integers that 32 bits hold with a sign. -/
theorem reads_int32 : int32.Reads = Json.IsInt32 := by
  funext v n
  refine propext ⟨fun h => ?_, ?_⟩
  · rw [Reads] at h
    match v, h with
    | .number (.integer i), h =>
      rw [ofJson] at h
      simp only [int32OfInt?] at h
      -- the reader knows an integer out of range from one in range, as the form does
      by_cases hrange : -0x80000000 ≤ i ∧ i < 0x80000000
      · rw [if_pos hrange] at h
        cases h
        exact ⟨i, rfl, hrange.1, hrange.2, Int32.toInt_ofInt_of_le hrange.1 hrange.2⟩
      · rw [if_neg hrange] at h
        cases h
  · rintro ⟨i, rfl, -, -, rfl⟩
    exact ofJson_int32 (int32OfInt?_toInt n)

/-- The schema of unsigned words takes the integers that 32 bits hold without one. -/
theorem reads_uint32 : uint32.Reads = Json.IsUInt32 := by
  funext v n
  refine propext ⟨fun h => ?_, ?_⟩
  · rw [Reads] at h
    match v, h with
    | .number (.integer i), h =>
      rw [ofJson] at h
      simp only [uint32OfInt?] at h
      by_cases hrange : 0 ≤ i ∧ i < 0x100000000
      · rw [if_pos hrange] at h
        cases h
        have hsize : i.toNat < UInt32.size := (Int.toNat_lt hrange.1).2 hrange.2
        refine ⟨i, rfl, hrange.1, hrange.2, ?_⟩
        rw [UInt32.toNat_ofNat_of_lt' hsize, Int.toNat_of_nonneg hrange.1]
      · rw [if_neg hrange] at h
        cases h
  · rintro ⟨i, rfl, -, -, rfl⟩
    exact ofJson_uint32 (uint32OfInt?_toNat n)

/-- The schema of lists takes arrays of what the schema of the items takes. -/
theorem reads_list {item : Schema α} : (list item).Reads = Json.IsList item.Reads := by
  funext v as
  refine propext ⟨fun h => ?_, ?_⟩
  · cases v with
    | array items => exact ⟨items, rfl, Outcome.mapM_eq_ok_iff.1 h⟩
    | _ => cases h
  · rintro ⟨items, rfl, h⟩
    exact Outcome.mapM_eq_ok_iff.2 h

/-- Labels are read from an object that has the same texts in the order of visiting. -/
theorem ofJson_labels_iff {members : List (String × Json)} {m : KeyMap String} :
    labels.ofJson (.object members) = .ok m ↔
      Json.visitingOrder members = m.toList.map fun e => (e.1, .text e.2) := by
  simp only [ofJson]
  constructor
  · intro h
    obtain ⟨entries, hentries, hm⟩ := Outcome.bind_eq_ok_iff.1 h
    have heq : Json.visitingOrder members = entries.map fun e => (e.1, .text e.2) := by
      replace hentries := Outcome.mapM_eq_ok_iff.1 hentries
      clear hm
      generalize Json.visitingOrder members = visited at hentries ⊢
      induction hentries with
      | nil => rfl
      | @cons member entry _ _ hmember _ ih =>
        rw [List.map_cons, ← ih]
        obtain ⟨key, v⟩ := member
        cases v <;> cases hmember
        rfl
    -- The entries keep the order of the members, which is that of a map.
    have hsorted : entries.Pairwise fun a b => a.1 < b.1 := by
      have horder : (Json.visitingOrder members).Pairwise fun a b => a.1 < b.1 :=
        KeyMap.sorted _
      rw [heq, List.pairwise_map] at horder
      exact horder
    rw [heq, ← Except.ok.inj hm, KeyMap.toList_ofList hsorted]
  · intro h
    rw [h, List.mapM_map]
    have hentries := Outcome.mapM_eq_ok (ε := Mismatch)
      (f := fun e : String × String => .ok (e.1, e.2)) (g := id) (l := m.toList) fun _ _ => rfl
    rw [List.map_id] at hentries
    simp only [Function.comp_def, hentries, bind, Except.bind, KeyMap.ofList_toList]

/-- The schema of labels takes objects of texts, of which the last under each key counts. -/
theorem reads_labels : labels.Reads = Json.IsLabels := by
  funext v m
  -- Both sides of the law are lists in order, so it is enough to look up each key.
  have hlookup (key : String) : (m.toList.map fun e => (e.1, Json.text e.2)).lookup key =
      (m.get? key).map .text := by
    rw [KeyMap.get?_eq_lookup]
    induction m.toList with
    | nil => rfl
    | cons e rest ih =>
      rw [List.map_cons, KeyMap.lookup_cons, KeyMap.lookup_cons, ih]
      split <;> rfl
  refine propext ⟨fun h => ?_, ?_⟩
  · cases v with
    | object members =>
      refine ⟨members, rfl, fun key => ?_⟩
      rw [← Json.lookup_visitingOrder, ofJson_labels_iff.1 h, hlookup]
    | _ => cases h
  · rintro ⟨members, rfl, h⟩
    refine ofJson_labels_iff.2 (KeyMap.eq_of_forall_lookup_eq (KeyMap.sorted _)
      (List.pairwise_map.2 m.sorted) fun key => ?_)
    show (Json.visitingOrder members).lookup key = _
    rw [Json.lookup_visitingOrder, h, hlookup]

/-- An object has a single member exactly if that member is found under its key and nothing under
    any other. -/
theorem visitingOrder_eq_singleton_iff {members : List (String × Json)} {key : String} {v : Json} :
    Json.visitingOrder members = [(key, v)] ↔
      ∀ other, Json.memberAt? members other = if other = key then some v else none := by
  have hsingle (other : String) :
      [(key, v)].lookup other = if other = key then some v else none := by
    rw [KeyMap.lookup_cons, List.lookup_nil]
  constructor
  · intro h other
    rw [← Json.lookup_visitingOrder, h, hsingle]
  · intro h
    refine KeyMap.eq_of_forall_lookup_eq (KeyMap.sorted _) (List.pairwise_singleton _ _)
      fun other => ?_
    show (Json.visitingOrder members).lookup other = _
    rw [Json.lookup_visitingOrder, h, hsingle]

section Choices

variable {options : List (String × α)} {name : α → String}

/-- An option is found by its name and by nothing else. -/
theorem optionNamed_eq_ok_iff (h : ∀ s a, options.lookup s = some a ↔ s = name a) {s : String}
    {a : α} : optionNamed options s = .ok a ↔ s = name a := by
  rw [optionNamed, ← h]
  cases options.lookup s with
  | none => simp
  | some b => simp

/-- What stands under the only name of an object must be null. -/
theorem ofJson_choice_object_iff (h : ∀ s a, options.lookup s = some a ↔ s = name a)
    {members : List (String × Json)} {a : α} :
    (choice options name).ofJson (.object members) = .ok a ↔
      Json.visitingOrder members = [(name a, .null)] := by
  rw [ofJson]
  -- Reading fails on no member and on more than one.
  rcases Json.visitingOrder members with _ | ⟨⟨s, content⟩, _ | ⟨m, ms⟩⟩
  · simp
  · constructor
    · intro hread
      obtain ⟨b, hb, hcontent⟩ := Outcome.bind_eq_ok_iff.1 hread
      rw [(optionNamed_eq_ok_iff h).1 hb]
      clear hread
      cases content with
      | null =>
        cases hcontent
        rfl
      | _ => cases hcontent
    · intro hsingle
      obtain ⟨rfl, rfl⟩ := Prod.mk.inj (List.singleton_inj.1 hsingle)
      exact Outcome.bind_eq_ok_iff.2 ⟨a, (optionNamed_eq_ok_iff h).2 rfl, rfl⟩
  · simp

/-- A choice is read from its name, and from an object that has nothing but the name. -/
theorem reads_choice (h : ∀ s a, options.lookup s = some a ↔ s = name a) :
    (choice options name).Reads = fun v a => v.IsChoice name a := by
  funext v a
  refine propext ⟨fun hread => ?_, fun hform => ?_⟩
  · rw [Reads] at hread
    cases v with
    | text s =>
      obtain rfl : s = name a := (optionNamed_eq_ok_iff h).1 hread
      exact .text
    | object members =>
      exact .object (visitingOrder_eq_singleton_iff.1 ((ofJson_choice_object_iff h).1 hread))
    | _ => cases hread
  · rw [Reads]
    cases hform with
    | text => exact (optionNamed_eq_ok_iff h).2 rfl
    | object hmembers =>
      exact (ofJson_choice_object_iff h).2 (visitingOrder_eq_singleton_iff.2 hmembers)

end Choices

/-- A value other than null is read as the part that it spells. -/
theorem ofJson_optional {inner : Schema α} {v : Json} (hv : v ≠ .null) :
    (optional inner).ofJson v = (inner.ofJson v).map some := by
  cases v with
  | null => exact absurd rfl hv
  | _ => rfl

/-- A part that is read as optional may be missing or null. -/
theorem defaulted_optional {inner : Schema α} :
    Json.Defaulted none (optional inner).Reads = Json.Optional inner.Reads := by
  funext v? a?
  refine propext ⟨fun h => ?_, fun h => ?_⟩
  · cases h with
    | missing => exact .missing
    | @given v a? hread =>
      rw [Reads] at hread
      -- Null is read as nothing at once; any other value goes to the schema inside.
      by_cases hv : v = .null
      · rw [hv] at hread ⊢
        cases hread
        exact .null
      · rw [ofJson_optional hv] at hread
        cases hvalue : inner.ofJson v with
        | error mismatch =>
          rw [hvalue] at hread
          cases hread
        | ok a =>
          rw [hvalue] at hread
          cases hread
          exact .given hv hvalue
  · cases h with
    | missing => exact .missing
    | null => exact .given rfl
    | given hv hread =>
      rw [Reads] at hread
      refine .given ?_
      rw [Reads, ofJson_optional hv, hread]
      rfl

end Schema

/-! ### Records -/

namespace Fields

variable {α β : Type}

/-- The number of members up to the last that must be there. -/
def least : Fields α → Nat
  | .nil => 0
  | .cons _ required _ _ _ rest => if required ∨ 0 < rest.least then rest.least + 1 else 0

/-- One record comes from another by putting in the values that are read from its parts. -/
def Completes : Fields α → (String → Option Json) → α → α → Prop
  | .nil, _, b, a => b = a
  | .cons key required schema _ set rest, part, b, a =>
    match part key with
    | some v => ∃ x, schema.Reads v x ∧ rest.Completes part (set x b) a
    | none => required = false ∧ rest.Completes part b a

/-- Whether members make up a record depends on the declared ones only. -/
theorem completes_congr {fields : Fields α} {part part' : String → Option Json}
    (h : ∀ key ∈ fields.keys, part key = part' key) {a b : α} :
    fields.Completes part b a ↔ fields.Completes part' b a := by
  fun_induction keys fields with
  | case1 => rfl
  | case2 α β key required schema get set rest ih =>
    obtain ⟨hkey, hrest⟩ := List.forall_mem_cons.1 h
    rw [Completes, Completes, ← hkey]
    cases part key with
    | none => exact and_congr_right fun _ => ih hrest
    | some v => exact exists_congr fun x => and_congr_right fun _ => ih hrest

/-- A member is read exactly if it is declared. -/
theorem isSome_ofMember?_iff {fields : Fields α} {key : String} {v : Json} :
    (fields.ofMember? key v).isSome ↔ key ∈ fields.keys := by
  fun_induction keys fields with
  | case1 => simp [ofMember?]
  | case2 α β name required schema get set rest ih =>
    rw [ofMember?, List.mem_cons]
    split
    · next heq => simp [heq]
    · next hne => rw [ih, or_iff_right hne]

/-- The parts of a completed record have been read. -/
theorem ofMember?_of_completes {fields : Fields α} (hkeys : fields.keys.Nodup)
    {part : String → Option Json} {a b : α} (h : fields.Completes part b a) {key : String}
    (hkey : key ∈ fields.keys) {v : Json} (hv : part key = some v) :
    ∃ update, fields.ofMember? key v = some (.ok update) := by
  fun_induction keys fields with
  | case1 => cases hkey
  | case2 α β name required schema get set rest ih =>
    obtain ⟨hname, hkeys⟩ := List.nodup_cons.1 hkeys
    rw [Completes] at h
    rw [ofMember?]
    -- The induction is on the fields: the key is the first one, or it is among the others, in which
    -- case the first is passed over whether it has a part or not.
    rcases List.mem_cons.1 hkey with rfl | hkey
    · rw [hv] at h
      obtain ⟨x, hx, -⟩ := h
      rw [Schema.Reads] at hx
      rw [if_pos rfl, hx]
      exact ⟨set x, rfl⟩
    · have hne : key ≠ name := fun heq => hname (heq ▸ hkey)
      rw [if_neg hne]
      cases hpart : part name with
      | none =>
        rw [hpart] at h
        exact ih hkeys h.2 hkey
      | some w =>
        rw [hpart] at h
        obtain ⟨x, -, hrest⟩ := h
        exact ih hkeys hrest hkey

/-- Changes that were read from the parts complete a record as the parts say. -/
theorem complete_iff {fields : Fields α} (hkeys : fields.keys.Nodup)
    {part : String → Option Json} {updates : List (String × (α → α))}
    (hgiven : ∀ key ∈ fields.keys, ∀ v, part key = some v →
      ∃ update, fields.ofMember? key v = some (.ok update) ∧ updates.lookup key = some update)
    (hmissing : ∀ key ∈ fields.keys, part key = none → updates.lookup key = none) {a b : α} :
    fields.complete updates b = .ok a ↔ fields.Completes part b a := by
  fun_induction keys fields with
  | case1 => exact ⟨Except.ok.inj, congrArg _⟩
  | case2 α β name required schema get set rest ih =>
    obtain ⟨hname, hkeys⟩ := List.nodup_cons.1 hkeys
    obtain ⟨hhead, htail⟩ := List.forall_mem_cons.1 hgiven
    obtain ⟨hnone, hmissing⟩ := List.forall_mem_cons.1 hmissing
    -- a later member has another name, so that the first one does not stand in for it
    have htail : ∀ key ∈ rest.keys, ∀ v, part key = some v →
        ∃ update, rest.ofMember? key v = some (.ok update) ∧ updates.lookup key = some update := by
      intro key hkey v hv
      have hne : key ≠ name := fun heq => hname (heq ▸ hkey)
      obtain ⟨update, hread, hlookup⟩ := htail key hkey v hv
      rw [ofMember?, if_neg hne] at hread
      exact ⟨update, hread, hlookup⟩
    have ih (c : α) : rest.complete updates c = .ok a ↔ rest.Completes part c a :=
      ih hkeys htail hmissing
    rw [complete, Completes]
    cases hpart : part name with
    | none =>
      rw [hnone hpart]
      cases required with
      | false => simpa using ih b
      | true => simp
    | some v =>
      obtain ⟨update, hread, hlookup⟩ := hhead v hpart
      rw [ofMember?, if_pos rfl] at hread
      have hread := Option.some.inj hread
      rw [hlookup]
      simp only [Schema.Reads]
      cases hv : schema.ofJson v with
      | error mismatch =>
        rw [hv] at hread
        cases hread
      | ok x =>
        rw [hv] at hread
        rw [← Except.ok.inj hread, ih]
        simp

/-- What is left under a key after some entries were dropped is what is made of the entry under it.
    -/
theorem lookup_filterMap {γ δ : Type} {g : String × γ → Option (String × δ)}
    {entries : List (String × γ)} (hkeys : (entries.map (·.1)).Nodup)
    (hg : ∀ m ∈ entries, ∀ e, g m = some e → e.1 = m.1) (key : String) :
    (entries.filterMap g).lookup key =
      (entries.lookup key).bind fun v => (g (key, v)).map (·.2) := by
  induction entries with
  | nil => rfl
  | cons m entries ih =>
    obtain ⟨hm, hkeys⟩ := List.nodup_cons.1 hkeys
    obtain ⟨hgm, hg⟩ := List.forall_mem_cons.1 hg
    rw [List.filterMap_cons, KeyMap.lookup_cons]
    by_cases hkey : key = m.1
    · -- the key stands in front only, so that nothing is found behind
      have hnone : entries.lookup key = none := by
        rw [List.lookup_eq_none_iff]
        intro e he
        have hmem : e.1 ∈ entries.map (·.1) := List.mem_map_of_mem he
        have hne : key ≠ e.1 := by
          intro heq
          rw [← heq, hkey] at hmem
          exact hm hmem
        simpa using hne
      have hm : (key, m.2) = m := Prod.ext hkey rfl
      rw [if_pos hkey, Option.bind_some, hm]
      cases hvalue : g m with
      | none =>
        rw [ih hkeys hg, hnone]
        rfl
      | some e => rw [KeyMap.lookup_cons, if_pos (hkey.trans (hgm e hvalue).symm), Option.map_some]
    · rw [if_neg hkey]
      cases hvalue : g m with
      | none => exact ih hkeys hg
      | some e =>
        have hne : key ≠ e.1 := by rwa [hgm e hvalue]
        rw [KeyMap.lookup_cons, if_neg hne]
        exact ih hkeys hg

/-- What is made of a member on a visit: a change if it is declared, and nothing otherwise. -/
def visit (fields : Fields α) (m : String × Json) :
    Except Mismatch (Option (String × (α → α))) :=
  match fields.ofMember? m.1 m.2 with
  | some read => read.map fun update => some (m.1, update)
  | none => .ok none

/-- A member is passed over if it is not declared, and else it must be read. -/
theorem visit_eq_ok_iff {fields : Fields α} {m : String × Json}
    {change? : Option (String × (α → α))} :
    fields.visit m = .ok change? ↔ (fields.ofMember? m.1 m.2 = none ∧ change? = none) ∨
      ∃ update, fields.ofMember? m.1 m.2 = some (.ok update) ∧ change? = some (m.1, update) := by
  rw [visit]
  rcases fields.ofMember? m.1 m.2 with _ | (_ | update)
  · simp [eq_comm]
  · simp [Except.map]
  · simp [Except.map, eq_comm]

/-- Whatever change each member gives, together they complete a record from the members. -/
theorem complete_visit_iff {fields : Fields α} (hkeys : fields.keys.Nodup)
    {members : List (String × Json)} {g : String × Json → Option (String × (α → α))}
    (hg : ∀ m ∈ Json.visitingOrder members, fields.visit m = .ok (g m)) {a b : α} :
    fields.complete ((Json.visitingOrder members).filterMap g) b = .ok a ↔
      fields.Completes (Json.memberAt? members) b a := by
  -- A key stands once among the visited members, so that a look-up finds the change of its own
  -- part.
  have hvisited : ((Json.visitingOrder members).map (·.1)).Nodup := KeyMap.nodup_keys _
  have hname : ∀ m ∈ Json.visitingOrder members, ∀ e, g m = some e → e.1 = m.1 := by
    intro m hm e he
    rcases visit_eq_ok_iff.1 (hg m hm) with ⟨-, hnone⟩ | ⟨update, -, hsome⟩
    · rw [he] at hnone
      cases hnone
    · rw [he] at hsome
      rw [Option.some.inj hsome]
  refine complete_iff hkeys (fun key hkey v hv => ?_) fun key hkey hnone => ?_
  · rw [← Json.lookup_visitingOrder] at hv
    have hdeclared : (fields.ofMember? key v).isSome := isSome_ofMember?_iff.2 hkey
    rcases visit_eq_ok_iff.1 (hg _ (KeyMap.mem_of_lookup_eq_some hv)) with
      ⟨hnone, -⟩ | ⟨update, hread, hchange⟩
    · simp only at hnone
      rw [hnone] at hdeclared
      cases hdeclared
    · refine ⟨update, hread, ?_⟩
      rw [lookup_filterMap hvisited hname, hv, Option.bind_some, hchange]
      rfl
  · rw [lookup_filterMap hvisited hname, Json.lookup_visitingOrder, hnone]
    rfl

/-- A record is read from an object in one visit of its members. -/
theorem ofJson_object_eq (name : String) (blank : α) (fields : Fields α)
    (members : List (String × Json)) :
    (Schema.record name blank fields).ofJson (.object members) =
      (Json.visitingOrder members).filterMapM fields.visit >>= fun updates =>
        fields.complete updates blank := by
  rw [Schema.ofJson]
  rfl

/-- A record is read from an object exactly if it is completed from the members. -/
theorem ofJson_object_iff {fields : Fields α} (hkeys : fields.keys.Nodup) {name : String}
    {blank a : α} {members : List (String × Json)} :
    (Schema.record name blank fields).ofJson (.object members) = .ok a ↔
      fields.Completes (Json.memberAt? members) blank a := by
  rw [ofJson_object_eq, Outcome.bind_eq_ok_iff]
  constructor
  · rintro ⟨updates, hupdates, hresult⟩
    obtain ⟨g, hg, rfl⟩ := Outcome.filterMapM_eq_ok_iff.1 hupdates
    exact (complete_visit_iff hkeys hg).1 hresult
  · intro h
    -- Every declared member takes part in the record, and so each visit goes well.
    have hvisit : ∀ m ∈ Json.visitingOrder members, ∃ change?, fields.visit m = .ok change? := by
      intro m hm
      have hpart : Json.memberAt? members m.1 = some m.2 := by
        rw [← Json.lookup_visitingOrder]
        exact KeyMap.lookup_of_mem (KeyMap.nodup_keys _) hm
      by_cases hkey : m.1 ∈ fields.keys
      · obtain ⟨update, hread⟩ := ofMember?_of_completes hkeys h hkey hpart
        exact ⟨_, visit_eq_ok_iff.2 (.inr ⟨update, hread, rfl⟩)⟩
      · rw [← isSome_ofMember?_iff (v := m.2), Option.not_isSome_iff_eq_none] at hkey
        exact ⟨none, visit_eq_ok_iff.2 (.inl ⟨hkey, rfl⟩)⟩
    choose! g hg using hvisit
    exact ⟨_, Outcome.filterMapM_eq_ok_iff.2 ⟨g, hg, rfl⟩, (complete_visit_iff hkeys hg).2 h⟩

/-- A record is read from an array exactly if it is completed from the items, of which there are
    neither too few nor too many. -/
theorem ofItems_iff {fields : Fields α} (hkeys : fields.keys.Nodup)
    {tooShort : Nat → Mismatch} {tooLong : Mismatch} {index : Nat} {items : List Json} {a b : α} :
    fields.ofItems tooShort tooLong index items b = .ok a ↔
      fields.least ≤ items.length ∧ items.length ≤ fields.keys.length ∧
        fields.Completes (fun key => items[fields.keys.idxOf key]?) b a := by
  fun_induction keys fields generalizing items index with
  | case1 =>
    cases items with
    | nil => simp [ofItems, least, Completes]
    | cons item items => simp [ofItems]
  | case2 α β name required schema get set rest ih =>
    obtain ⟨hname, hkeys⟩ := List.nodup_cons.1 hkeys
    -- Behind the first item, a member of the rest stands one place further on.
    have hrest (items : List Json) (b : α) :
        rest.Completes (fun key => items[(name :: rest.keys).idxOf key]?) b a ↔
          rest.Completes (fun key => (items.drop 1)[rest.keys.idxOf key]?) b a := by
      refine completes_congr fun key hkey => ?_
      have hne : name ≠ key := fun heq => hname (heq ▸ hkey)
      rw [List.idxOf_cons_ne _ hne, List.getElem?_drop, Nat.succ_eq_one_add]
    have hfirst : (name :: rest.keys).idxOf name = 0 := List.idxOf_cons_self
    rw [least, Completes, hfirst]
    cases items with
    | nil =>
      rw [ofItems]
      cases required with
      | true => simp
      | false =>
        simp only [Bool.false_eq_true, if_false, ih hkeys, List.getElem?_nil, false_or, true_and]
        simp
    | cons item items =>
      rw [ofItems, Outcome.bind_eq_ok_iff]
      simp only [List.getElem?_cons_zero, hrest, List.drop_one, List.tail_cons, Schema.Reads,
        List.length_cons, ih hkeys]
      constructor
      · rintro ⟨x, hx, hlower, hupper, hcompletes⟩
        exact ⟨by split <;> omega, by omega, x, hx, hcompletes⟩
      · rintro ⟨hlower, hupper, x, hx, hcompletes⟩
        refine ⟨x, hx, ?_, by omega, hcompletes⟩
        split at hlower <;> omega

/-! ### Members -/

section Members

variable {key : String} {schema : Schema β} {get : α → β} {set : β → α → α} {rest : Fields α}
  {part : String → Option Json} {a b : α}

/-- A required member must be there. -/
theorem completes_required :
    (cons key true schema get set rest).Completes part b a ↔
      ∃ x, Json.Required schema.Reads (part key) x ∧ rest.Completes part (set x b) a := by
  rw [Completes]
  cases part key with
  | none => simp [Json.Required]
  | some v => simp [Json.Required]

/-- A member that is left out is as in the record that was there before. -/
theorem completes_defaulted {default : β} (hset : set default b = b) :
    (cons key false schema get set rest).Completes part b a ↔
      ∃ x, Json.Defaulted default schema.Reads (part key) x ∧
        rest.Completes part (set x b) a := by
  rw [Completes]
  -- The hypothesis is needed only for a part that is missing: then the record is left as it was.
  cases part key with
  | none =>
    constructor
    · rintro ⟨-, h⟩
      exact ⟨default, .missing, by rwa [hset]⟩
    · rintro ⟨x, hx, h⟩
      cases hx
      rw [hset] at h
      exact ⟨rfl, h⟩
  | some v =>
    constructor
    · rintro ⟨x, hx, h⟩
      exact ⟨x, .given hx, h⟩
    · rintro ⟨x, hx, h⟩
      cases hx with
      | given hx => exact ⟨x, hx, h⟩

/-- An optional member may be missing or null. -/
theorem completes_optional {inner : Schema β} {get : α → Option β} {set : Option β → α → α}
    (hset : set none b = b) :
    (cons key false (.optional inner) get set rest).Completes part b a ↔
      ∃ x, Json.Optional inner.Reads (part key) x ∧ rest.Completes part (set x b) a := by
  rw [completes_defaulted hset, Schema.defaulted_optional]

end Members

end Fields

namespace Schema

variable {α : Type}

/-- **Records are read by their form.**  A record whose keys differ is read from the values that
    have its parts, and these say what it is. -/
theorem reads_record_iff {fields : Fields α} (hkeys : fields.keys.Nodup) {name : String}
    {blank a : α} {v : Json} :
    (record name blank fields).Reads v a ↔
      v.IsRecord fields.keys fields.least fun part => fields.Completes part blank a := by
  constructor
  · intro h
    cases v with
    | object members => exact .object ((Fields.ofJson_object_iff hkeys).1 h)
    | array items =>
      obtain ⟨hlower, hupper, hcompletes⟩ := (Fields.ofItems_iff hkeys).1 h
      exact .array hlower hupper hcompletes
    | _ => cases h
  · intro h
    cases h with
    | object hcompletes => exact (Fields.ofJson_object_iff hkeys).2 hcompletes
    | array hlower hupper hcompletes =>
      exact (Fields.ofItems_iff hkeys).2 ⟨hlower, hupper, hcompletes⟩

end Schema

end MachineTuning
