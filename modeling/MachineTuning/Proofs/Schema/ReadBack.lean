import MachineTuning.Proofs.Json.ReadBack
import MachineTuning.Proofs.Outcome
import MachineTuning.Schema.OfJson

namespace MachineTuning

/-!
# Schemas — what is written is read back

A schema reads back if every value is read from the document that is written for it.  That it does
is settled part by part: by the schemas inside, and for a record by its members as well, which must
have different names and together make up the whole record.

* `Schema.readsBack_record` — records read back if their members do;
* `Schema.isExact_toJson` — a written document holds nothing that its text would not spell;
* `Schema.ofText?_compact`, `Schema.ofText?_pretty` — so values read back from the text of their
  documents, too.
-/

namespace Schema

variable {α : Type}

/-- Every value is read from what is written for it. -/
def ReadsBack (schema : Schema α) : Prop :=
  ∀ a, schema.ofJson (schema.toJson a) = .ok a

/-- No value is written as null. -/
def NeverNull (schema : Schema α) : Prop :=
  ∀ a, (schema.toJson a).isNull = false

/-- A text is never written as null. -/
theorem neverNull_text : text.NeverNull := fun _ => rfl

/-- A list is never written as null. -/
theorem neverNull_list (item : Schema α) : (list item).NeverNull := fun _ => rfl

/-- Labels are never written as null. -/
theorem neverNull_labels : labels.NeverNull := fun _ => rfl

/-- A record is never written as null. -/
theorem neverNull_record (name : String) (blank : α) (fields : Fields α) :
    (record name blank fields).NeverNull := fun _ => rfl

/-! ### Parts -/

/-- Texts read back. -/
theorem readsBack_text : text.ReadsBack := fun _ => rfl

/-- Truth values read back. -/
theorem readsBack_flag : flag.ReadsBack := fun _ => rfl

/-- The number of a signed word gives the word again. -/
theorem int32OfInt?_toInt (n : Int32) : int32OfInt? n.toInt = some n := by
  have hlower := n.le_toInt
  have hupper := n.toInt_lt
  rw [int32OfInt?, if_pos (by omega), Int32.ofInt_toInt]

/-- A signed word is read from its number. -/
theorem ofJson_int32 {n : Int} {word : Int32} (h : int32OfInt? n = some word) :
    int32.ofJson (.ofInt n) = .ok word := by
  simp only [ofJson, Json.ofInt, h]

/-- Signed words read back. -/
theorem readsBack_int32 : int32.ReadsBack := by
  intro n
  rw [toJson]
  exact ofJson_int32 (int32OfInt?_toInt n)

/-- The number of an unsigned word gives the word again. -/
theorem uint32OfInt?_toNat (n : UInt32) : uint32OfInt? n.toNat = some n := by
  have hupper := n.toNat_lt
  rw [uint32OfInt?, if_pos (by omega), Int.toNat_natCast, UInt32.ofNat_toNat]

/-- An unsigned word is read from its number. -/
theorem ofJson_uint32 {n : Int} {word : UInt32} (h : uint32OfInt? n = some word) :
    uint32.ofJson (.ofInt n) = .ok word := by
  simp only [ofJson, Json.ofInt, h]

/-- Unsigned words read back. -/
theorem readsBack_uint32 : uint32.ReadsBack := by
  intro n
  rw [toJson]
  exact ofJson_uint32 (uint32OfInt?_toNat n)

/-- A part that may be missing reads back if the part itself does and is never null. -/
theorem readsBack_optional {inner : Schema α} (h : inner.ReadsBack) (hnull : inner.NeverNull) :
    (optional inner).ReadsBack := by
  intro a?
  cases a? with
  | none => rfl
  | some a =>
    have hne := hnull a
    have hread := h a
    simp only [toJson, ofJson]
    -- A value is taken for a missing one only if it is written as null.
    split
    · next heq =>
      rw [heq] at hne
      cases hne
    · rw [hread]
      rfl

/-- A list reads back if its items do. -/
theorem readsBack_list {item : Schema α} (h : item.ReadsBack) : (list item).ReadsBack := by
  intro as
  simp only [toJson, ofJson, List.mapM_map]
  have hread :=
    Outcome.mapM_eq_ok (f := item.ofJson ∘ item.toJson) (g := id) (l := as) fun a _ => h a
  rw [List.map_id] at hread
  exact hread

/-- Labels read back, as they are written in the order of their keys. -/
theorem readsBack_labels : labels.ReadsBack := by
  intro m
  -- Labels are in order already, so the reader visits them as they were written.
  have horder : Json.visitingOrder (m.toList.map fun e => (e.1, .text e.2)) =
      m.toList.map fun e => (e.1, .text e.2) :=
    KeyMap.toList_ofList (List.pairwise_map.2 m.sorted)
  have hentries := Outcome.mapM_eq_ok (ε := Mismatch)
    (f := fun e : String × String => .ok (e.1, e.2)) (g := id) (l := m.toList) fun _ _ => rfl
  rw [List.map_id] at hentries
  simp only [toJson, ofJson, horder, List.mapM_map, Function.comp_def, hentries, bind, Except.bind,
    KeyMap.ofList_toList]

/-- A choice reads back if no two options share a name. -/
theorem readsBack_choice {options : List (String × α)} {name : α → String}
    (h : ∀ a, options.lookup (name a) = some a) : (choice options name).ReadsBack := by
  intro a
  simp [toJson, ofJson, optionNamed, h]

end Schema

/-! ### Records -/

namespace Fields

variable {α : Type}

/-- A member that is never null is written in front of the others. -/
theorem toMembers_cons {β : Type} {schema : Schema β} (h : schema.NeverNull) (key : String)
    (required : Bool) (get : α → β) (set : β → α → α) (rest : Fields α) (a : α) :
    (cons key required schema get set rest).toMembers a =
      (key, schema.toJson (get a)) :: rest.toMembers a := by
  rw [toMembers, h (get a)]
  rfl

/-- An optional member is written if it is there. -/
theorem toMembers_cons_optional {β : Type} {inner : Schema β} (h : inner.NeverNull) (key : String)
    (required : Bool) (get : α → Option β) (set : Option β → α → α) (rest : Fields α) (a : α) :
    (cons key required (.optional inner) get set rest).toMembers a =
      ((get a).toList.map fun b => (key, inner.toJson b)) ++ rest.toMembers a := by
  rw [toMembers]
  cases hget : get a with
  | none => rfl
  | some b =>
    simp only [Schema.toJson, h b]
    rfl

/-- Every member reads back, and one that must not be missing is always written. -/
def EachReadsBack {α : Type} : Fields α → Prop
  | .nil => True
  | .cons _ required schema _ _ rest =>
    schema.ReadsBack ∧ (required = true → schema.NeverNull) ∧ rest.EachReadsBack

/-- A member that must not be missing is always written. -/
def WritesRequired {α : Type} : Fields α → Prop
  | .nil => True
  | .cons _ required schema _ _ rest => (required = true → schema.NeverNull) ∧ rest.WritesRequired

/-- Members that read back are written if they are required. -/
theorem EachReadsBack.writesRequired {fields : Fields α} (h : fields.EachReadsBack) :
    fields.WritesRequired := by
  fun_induction keys fields with
  | case1 => trivial
  | case2 α β key required schema get set rest ih => exact ⟨h.2.1, ih h.2.2⟩

/-- A record with the written members of another one put in. -/
def restore {α : Type} : Fields α → α → α → α
  | .nil, _, b => b
  | .cons _ _ schema get set rest, a, b =>
    rest.restore a (if (schema.toJson (get a)).isNull then b else set (get a) b)

/-- The change that reading a member makes, with the value that a record has for it. -/
def change {α : Type} : Fields α → α → String → α → α
  | .nil, _, _ => id
  | .cons key _ _ get set rest, a, name => if name = key then set (get a) else rest.change a name

/-- Members are written in the order of their declaration, some of them left out. -/
theorem keys_toMembers_sublist (fields : Fields α) (a : α) :
    ((fields.toMembers a).map (·.1)).Sublist fields.keys := by
  fun_induction keys fields with
  | case1 => exact .slnil
  | case2 α β key required schema get set rest ih =>
    rw [toMembers]
    split
    · exact (ih a).cons key
    · exact (ih a).cons_cons key

/-- No two members that are written have the same name. -/
theorem nodup_toMembers {fields : Fields α} (hkeys : fields.keys.Nodup) (a : α) :
    ((fields.toMembers a).map (·.1)).Nodup :=
  hkeys.sublist (fields.keys_toMembers_sublist a)

/-- Only declared members are written. -/
theorem mem_keys_of_mem_toMembers {fields : Fields α} {a : α} {m : String × Json}
    (h : m ∈ fields.toMembers a) : m.1 ∈ fields.keys :=
  (fields.keys_toMembers_sublist a).subset (List.mem_map_of_mem h)

/-- A name stands for one member only, so a written member is the first one or a later one. -/
theorem mem_toMembers_cons {β : Type} {key : String} {required : Bool} {schema : Schema β}
    {get : α → β} {set : β → α → α} {rest : Fields α} (hkey : key ∉ rest.keys) {a : α}
    {m : String × Json} (hm : m ∈ (cons key required schema get set rest).toMembers a) :
    m = (key, schema.toJson (get a)) ∨ m.1 ≠ key ∧ m ∈ rest.toMembers a := by
  have hlater (h : m ∈ rest.toMembers a) : m.1 ≠ key ∧ m ∈ rest.toMembers a := by
    refine ⟨fun hname => hkey ?_, h⟩
    rw [← hname]
    exact mem_keys_of_mem_toMembers h
  rw [toMembers] at hm
  split at hm
  · exact .inr (hlater hm)
  · exact (List.mem_cons.1 hm).imp_right hlater

/-- A written member is read as the change to the value that was written. -/
theorem ofMember?_of_mem {fields : Fields α} (h : fields.EachReadsBack)
    (hkeys : fields.keys.Nodup) {a : α} {m : String × Json} (hm : m ∈ fields.toMembers a) :
    fields.ofMember? m.1 m.2 = some (.ok (fields.change a m.1)) := by
  fun_induction keys fields with
  | case1 => cases hm
  | case2 α β key required schema get set rest ih =>
    obtain ⟨hschema, -, hrest⟩ := h
    obtain ⟨hkey, hkeys⟩ := List.nodup_cons.1 hkeys
    rw [ofMember?, change]
    rcases mem_toMembers_cons hkey hm with rfl | ⟨hname, hm⟩
    · rw [if_pos rfl, if_pos rfl, hschema]
      rfl
    · rw [if_neg hname, if_neg hname]
      exact ih hrest hkeys hm

/-- With the changes of all written members, a record is completed as it was. -/
theorem complete_of_lookup {fields : Fields α} (h : fields.WritesRequired)
    (hkeys : fields.keys.Nodup) {updates : List (String × (α → α))} {a : α}
    (hupdates : ∀ key ∈ fields.keys, updates.lookup key =
      ((fields.toMembers a).lookup key).map fun _ => fields.change a key) (b : α) :
    fields.complete updates b = .ok (fields.restore a b) := by
  fun_induction keys fields with
  | case1 => rfl
  | case2 α β key required schema get set rest ih =>
    obtain ⟨hrequired, hrest⟩ := h
    obtain ⟨hkey, hkeys⟩ := List.nodup_cons.1 hkeys
    obtain ⟨hhead, htail⟩ := List.forall_mem_cons.1 hupdates
    -- a later member has another name, so that the first one does not stand in for it
    have htail : ∀ other ∈ rest.keys, updates.lookup other =
        ((rest.toMembers a).lookup other).map fun _ => rest.change a other := by
      intro other hother
      have hne : other ≠ key := fun heq => hkey (heq ▸ hother)
      rw [htail other hother, toMembers, change, if_neg hne]
      split
      · rfl
      · rw [KeyMap.lookup_cons, if_neg hne]
    have hnone : (rest.toMembers a).lookup key = none := by
      rw [List.lookup_eq_none_iff]
      intro m hm
      have hne : key ≠ m.1 := fun heq => hkey (heq ▸ mem_keys_of_mem_toMembers hm)
      simpa using hne
    rw [toMembers, change, if_pos rfl] at hhead
    rw [complete, restore]
    -- A member that is written as null is left out, which only an optional one may be.
    by_cases hnull : (schema.toJson (get a)).isNull
    · have hoptional : required ≠ true := fun hreq => by
        rw [hrequired hreq (get a)] at hnull
        cases hnull
      rw [if_pos hnull, hnone] at hhead
      rw [hhead, if_pos hnull]
      simp only [Option.map_none, if_neg hoptional]
      exact ih hrest hkeys htail b
    · rw [if_neg hnull, KeyMap.lookup_cons, if_pos rfl] at hhead
      rw [hhead, if_neg hnull]
      exact ih hrest hkeys htail _

/-- A table made of the keys of another has something under the same keys. -/
theorem lookup_map {β γ : Type} (f : String → γ) (entries : List (String × β)) (key : String) :
    (entries.map fun e => (e.1, f e.1)).lookup key = (entries.lookup key).map fun _ => f key := by
  induction entries with
  | nil => rfl
  | cons e entries ih =>
    rw [List.map_cons, KeyMap.lookup_cons, KeyMap.lookup_cons, ih]
    by_cases hkey : key = e.1
    · rw [if_pos hkey, if_pos hkey, hkey]
      rfl
    · rw [if_neg hkey, if_neg hkey]

end Fields

/-- **Records read back.**  A record is read from its members if these read back, have different
    names and make up all of it. -/
theorem Schema.readsBack_record {α : Type} {name : String} {blank : α} {fields : Fields α}
    (h : fields.EachReadsBack) (hkeys : fields.keys.Nodup)
    (hrestore : ∀ a, fields.restore a blank = a) : (record name blank fields).ReadsBack := by
  -- First each written member is read as a change, then the changes complete the blank record.
  intro a
  rw [toJson, ofJson, Outcome.filterMapM_eq_ok (g := fun m => (m.1, fields.change a m.1))]
  · show fields.complete _ blank = _
    rw [Fields.complete_of_lookup h.writesRequired hkeys, hrestore]
    intro key hkey
    rw [Fields.lookup_map, Json.visitingOrder,
      KeyMap.lookup_ofList_of_nodup (Fields.nodup_toMembers hkeys a)]
  · intro m hm
    rw [Fields.ofMember?_of_mem h hkeys (KeyMap.mem_of_mem_ofList hm)]
    rfl

/-! ### Regular schemas -/

mutual
/-- What a schema needs to be read as it is written: nothing but null stands for a missing part,
    each choice has a name of its own, and the members of a record have different names and make up
    all of it. -/
def Schema.IsRegular {α : Type} : Schema α → Prop
  | .optional inner => inner.IsRegular ∧ inner.NeverNull
  | .list item => item.IsRegular
  | .choice options name => ∀ a, options.lookup (name a) = some a
  | .record _ blank fields =>
    fields.keys.Nodup ∧ (∀ a, fields.restore a blank = a) ∧ fields.IsRegular
  | .text | .flag | .int32 | .uint32 | .labels => True

/-- The same for each member, where one that must not be missing is always written. -/
def Fields.IsRegular {α : Type} : Fields α → Prop
  | .nil => True
  | .cons _ required schema _ _ rest =>
    schema.IsRegular ∧ (required = true → schema.NeverNull) ∧ rest.IsRegular
end

/-- A regular record writes its required members. -/
theorem Fields.IsRegular.writesRequired {α : Type} {fields : Fields α} (h : fields.IsRegular) :
    fields.WritesRequired := by
  fun_induction Fields.keys fields with
  | case1 => trivial
  | case2 α β key required schema get set rest ih => exact ⟨h.2.1, ih h.2.2⟩

mutual
/-- **Regular schemas read back.** -/
theorem Schema.IsRegular.readsBack {α : Type} : ∀ {schema : Schema α}, schema.IsRegular →
    schema.ReadsBack
  -- The recursion is on the schema; a record calls the same for its fields.
  | .text, _ => Schema.readsBack_text
  | .flag, _ => Schema.readsBack_flag
  | .int32, _ => Schema.readsBack_int32
  | .uint32, _ => Schema.readsBack_uint32
  | .optional inner, h => by
    obtain ⟨hinner, hnull⟩ : inner.IsRegular ∧ inner.NeverNull := h
    exact Schema.readsBack_optional hinner.readsBack hnull
  | .list item, h => by
    have hitem : item.IsRegular := h
    exact Schema.readsBack_list hitem.readsBack
  | .labels, _ => Schema.readsBack_labels
  | .choice _ _, h => Schema.readsBack_choice h
  | .record _ blank fields, h => by
    obtain ⟨hkeys, hrestore, hfields⟩ : fields.keys.Nodup ∧
      (∀ a, fields.restore a blank = a) ∧ fields.IsRegular := h
    exact Schema.readsBack_record hfields.eachReadsBack hkeys hrestore

/-- Each member of a regular record reads back. -/
theorem Fields.IsRegular.eachReadsBack {α : Type} : ∀ {fields : Fields α}, fields.IsRegular →
    fields.EachReadsBack
  | .nil, _ => trivial
  | .cons _ required schema _ _ rest, h => by
    obtain ⟨hschema, hrequired, hrest⟩ : schema.IsRegular ∧
      (required = true → schema.NeverNull) ∧ rest.IsRegular := h
    exact ⟨hschema.readsBack, hrequired, hrest.eachReadsBack⟩
end

/-! ### Texts of documents -/

mutual
/-- A written document holds nothing that its text would not spell. -/
theorem Schema.isExact_toJson {α : Type} : ∀ (schema : Schema α) (a : α), (schema.toJson a).IsExact
  | .text, s => .text s
  | .flag, b => .boolean b
  | .int32, n => .integer (by have := n.le_toInt; omega) (by have := n.toInt_lt; omega)
  | .uint32, n => .integer (by have := n.toNat_lt; omega) (by have := n.toNat_lt; omega)
  | .optional _, none => .null
  | .optional inner, some a => Schema.isExact_toJson inner a
  | .list item, as => by
    refine .array fun v hv => ?_
    obtain ⟨a, -, rfl⟩ := List.mem_map.1 hv
    exact Schema.isExact_toJson item a
  | .labels, m => by
    refine .object fun v hv => ?_
    obtain ⟨e, -, rfl⟩ := List.mem_map.1 hv
    exact .text e.2
  | .choice _ name, a => .text (name a)
  | .record _ _ fields, a => .object (Fields.isExact_toMembers fields a)

/-- No member that is written holds anything that its text would not spell. -/
theorem Fields.isExact_toMembers {α : Type} : ∀ (fields : Fields α) (a : α),
    ∀ m ∈ fields.toMembers a, m.2.IsExact
  | .nil, _ => fun _ hm => nomatch hm
  | .cons key required schema get set rest, a => by
    intro m hm
    rw [Fields.toMembers] at hm
    split at hm
    · exact Fields.isExact_toMembers rest a m hm
    · rcases List.mem_cons.1 hm with rfl | hm
      · exact Schema.isExact_toJson schema (get a)
      · exact Fields.isExact_toMembers rest a m hm
end

namespace Schema

variable {α : Type}

/-- The value that the text of a document spells. -/
def ofText? (schema : Schema α) (s : String) : Option α := do
  (schema.ofJson (← Json.parse? s)).toOption

/-- **Values read back** from the text of their documents, in either layout. -/
theorem ofText?_compact {schema : Schema α} (h : schema.ReadsBack) (a : α) :
    schema.ofText? (schema.toJson a).compact = some a := by
  simp [ofText?, Json.parse?_compact (schema.isExact_toJson a), h a, Except.toOption]

/-- A document is read from its text on many lines. -/
theorem ofText?_pretty {schema : Schema α} (h : schema.ReadsBack) (a : α) :
    schema.ofText? (schema.toJson a).pretty = some a := by
  simp [ofText?, Json.parse?_pretty (schema.isExact_toJson a), h a, Except.toOption]

/-- A document is read from its text on many lines, whatever blanks stand behind it. -/
theorem ofText?_pretty_append {schema : Schema α} (h : schema.ReadsBack) (a : α) {blanks : String}
    (hblanks : ∀ c ∈ blanks.toList, Json.isBlank c) :
    schema.ofText? ((schema.toJson a).pretty ++ blanks) = some a := by
  simp [ofText?, Json.parse?_pretty_append (schema.isExact_toJson a) hblanks, h a,
    Except.toOption]

/-- Values that have the same text are the same. -/
theorem compact_toJson_inj {schema : Schema α} (h : schema.ReadsBack) {a b : α} :
    (schema.toJson a).compact = (schema.toJson b).compact ↔ a = b := by
  constructor
  · intro heq
    have hread := ofText?_compact h a
    rw [heq, ofText?_compact h b] at hread
    exact (Option.some.inj hread).symm
  · rintro rfl
    rfl

end Schema

end MachineTuning
