namespace MachineTuning

/-!
# Key maps — values under text keys, in the order of the keys

Labels, and the members of a document's object while it is being read, are kept in increasing
order of their keys, each key once, so that two maps with the same content are the same value
and are written alike.  The order is that of code points, which is also the order of the UTF-8
bytes.  `KeyMap.insert` puts one value under a key, `KeyMap.ofList` keeps the last value given
for each key; `lookup_ofList` and `ofList_toList` say so.  With each key once, the order of the
entries does not matter (`ofList_eq_of_perm`).
-/

/-- A list of keys and values in strictly increasing order of the keys. -/
structure KeyMap (α : Type) where
  toList : List (String × α)
  sorted : toList.Pairwise fun a b => a.1 < b.1 := by simp
  deriving DecidableEq

namespace KeyMap

variable {α : Type}

/-- Maps with the same entries are equal. -/
@[ext] theorem ext {m n : KeyMap α} (h : m.toList = n.toList) : m = n := by
  cases m; cases n; cases h; rfl

/-- The map without keys. -/
def empty : KeyMap α := ⟨[], .nil⟩

/-- The map without entries stands where any map will do. -/
instance : Inhabited (KeyMap α) := ⟨empty⟩

/-- A value put under its key into an ordered list; a value already there gives way. -/
def insertEntry (key : String) (value : α) : List (String × α) → List (String × α)
  | [] => [(key, value)]
  | entry :: rest =>
    if key < entry.1 then (key, value) :: entry :: rest
    else if key = entry.1 then (key, value) :: rest
    else entry :: insertEntry key value rest

/-- An entry that stands in a list after an insertion was put in or stood there before. -/
theorem eq_or_mem_of_mem_insertEntry {key : String} {value : α} {entries : List (String × α)}
    {e : String × α} (h : e ∈ insertEntry key value entries) :
    e = (key, value) ∨ e ∈ entries := by
  induction entries with
  | nil => simp_all [insertEntry]
  | cons entry rest ih =>
    rw [insertEntry] at h
    split at h
    · exact List.mem_cons.1 h
    · split at h
      · exact (List.mem_cons.1 h).imp_right (List.mem_cons_of_mem _)
      · rcases List.mem_cons.1 h with rfl | h
        · exact .inr List.mem_cons_self
        · exact (ih h).imp_right (List.mem_cons_of_mem _)

/-- An entry is put in its place in the order of the keys. -/
theorem pairwise_insertEntry {key : String} {value : α} {entries : List (String × α)}
    (h : entries.Pairwise fun a b => a.1 < b.1) :
    (insertEntry key value entries).Pairwise fun a b => a.1 < b.1 := by
  induction entries with
  | nil => simp [insertEntry]
  | cons entry rest ih =>
    obtain ⟨first, tail⟩ := List.pairwise_cons.1 h
    rw [insertEntry]
    split
    · next lt =>
      refine List.pairwise_cons.2 ⟨fun b hb => ?_, h⟩
      rcases List.mem_cons.1 hb with rfl | hb
      · exact lt
      · exact String.lt_trans lt (first b hb)
    · split
      · next eq => exact List.pairwise_cons.2 ⟨fun b hb => eq ▸ first b hb, tail⟩
      · next nlt ne =>
        refine List.pairwise_cons.2 ⟨fun b hb => ?_, ih tail⟩
        rcases eq_or_mem_of_mem_insertEntry hb with rfl | hb
        · exact Decidable.byContradiction fun nlt' =>
            ne (String.le_antisymm (String.not_lt.1 nlt') (String.not_lt.1 nlt))
        · exact first b hb

/-- The map with `value` under `key`. -/
def insert (m : KeyMap α) (key : String) (value : α) : KeyMap α :=
  ⟨insertEntry key value m.toList, pairwise_insertEntry m.sorted⟩

/-- The map of these entries; of several under one key the last stays. -/
def ofList (entries : List (String × α)) : KeyMap α :=
  entries.foldl (fun m e => m.insert e.1 e.2) empty

/-- The value under a key. -/
def get? (m : KeyMap α) (key : String) : Option α :=
  (m.toList.find? (·.1 = key)).map (·.2)

/-- The map with its values changed. -/
def mapValues {β : Type} (f : α → β) (m : KeyMap α) : KeyMap β :=
  ⟨m.toList.map fun e => (e.1, f e.2), List.pairwise_map.2 m.sorted⟩

/-! ### What a map holds -/

/-- A key is looked for at the first entry, and then behind it. -/
theorem lookup_cons (key : String) (entry : String × α) (rest : List (String × α)) :
    (entry :: rest).lookup key = if key = entry.1 then some entry.2 else rest.lookup key := by
  by_cases h : key = entry.1
  · rw [List.lookup_cons, beq_iff_eq.2 h, if_pos h]
  · rw [List.lookup_cons, beq_eq_false_iff_ne.2 h, if_neg h]

/-- An insertion changes what stands under its key and nothing else. -/
theorem lookup_insertEntry (key other : String) (value : α) (entries : List (String × α)) :
    (insertEntry key value entries).lookup other =
      if other = key then some value else entries.lookup other := by
  induction entries with
  | nil => rw [insertEntry, lookup_cons]
  | cons entry rest ih =>
    unfold insertEntry
    split
    · rw [lookup_cons]
    · split
      · next heq =>
        rw [lookup_cons, lookup_cons, heq]
        split <;> rfl
      · next hne =>
        rw [lookup_cons, lookup_cons, ih]
        -- `key` is another key than that of `entry`, so at most one of the two is looked up.
        by_cases hentry : other = entry.1
        · have hkey : other ≠ key := fun h => hne (h.symm.trans hentry)
          rw [if_pos hentry, if_neg hkey, if_pos hentry]
        · rw [if_neg hentry, if_neg hentry]

/-- Entries put into a map one after the other. -/
theorem lookup_foldl_insert (entries : List (String × α)) (m : KeyMap α) (key : String) :
    (entries.foldl (fun m e => m.insert e.1 e.2) m).toList.lookup key =
      (entries.reverse.lookup key).or (m.toList.lookup key) := by
  induction entries generalizing m with
  | nil => simp
  | cons entry rest ih =>
    -- Whatever comes behind `entry` is put in later, and stands in front of it when reversed.
    rw [List.foldl_cons, ih, insert, lookup_insertEntry, List.reverse_cons, List.lookup_append,
      Option.or_assoc, lookup_cons]
    by_cases hkey : key = entry.1 <;> simp [hkey]

/-- A map of entries holds the last of each key. -/
theorem lookup_ofList (entries : List (String × α)) (key : String) :
    (ofList entries).toList.lookup key = entries.reverse.lookup key := by
  rw [ofList, lookup_foldl_insert]
  simp [empty]

/-- Where no key comes again, the order of the entries does not matter to a look-up. -/
theorem lookup_reverse_of_nodup {entries : List (String × α)} (h : (entries.map (·.1)).Nodup)
    (key : String) : entries.reverse.lookup key = entries.lookup key := by
  induction entries with
  | nil => rfl
  | cons entry rest ih =>
    obtain ⟨hentry, hrest⟩ := List.nodup_cons.1 h
    rw [List.reverse_cons, List.lookup_append, ih hrest, lookup_cons, lookup_cons]
    -- Reversed, `entry` comes last, which matters only if the rest has its key as well.
    by_cases hkey : key = entry.1
    · have hnone : rest.lookup key = none := by
        rw [List.lookup_eq_none_iff]
        intro e he
        have hne : key ≠ e.1 := by
          intro heq
          have hmem : e.1 ∈ rest.map (·.1) := List.mem_map_of_mem he
          rw [← heq, hkey] at hmem
          exact hentry hmem
        simpa using hne
      rw [hnone, if_pos hkey, if_pos hkey]
      rfl
    · rw [if_neg hkey, if_neg hkey, List.lookup_nil, Option.or_none]

/-- With each key once, a map holds the entries that it is made of. -/
theorem lookup_ofList_of_nodup {entries : List (String × α)} (h : (entries.map (·.1)).Nodup)
    (key : String) : (ofList entries).toList.lookup key = entries.lookup key := by
  rw [lookup_ofList, lookup_reverse_of_nodup h]

/-- Entries of a map come from the one that it was before or from what was put in. -/
theorem mem_or_mem_of_mem_foldl_insert {entries : List (String × α)} {m : KeyMap α}
    {e : String × α} (h : e ∈ (entries.foldl (fun m e => m.insert e.1 e.2) m).toList) :
    e ∈ entries ∨ e ∈ m.toList := by
  induction entries generalizing m with
  | nil => exact .inr h
  | cons entry rest ih =>
    rcases ih h with h | h
    · exact .inl (List.mem_cons_of_mem _ h)
    · rcases eq_or_mem_of_mem_insertEntry h with rfl | h
      · exact .inl List.mem_cons_self
      · exact .inr h

/-- A map holds nothing but the entries that it is made of. -/
theorem mem_of_mem_ofList {entries : List (String × α)} {e : String × α}
    (h : e ∈ (ofList entries).toList) : e ∈ entries :=
  (mem_or_mem_of_mem_foldl_insert h).resolve_right List.not_mem_nil

/-- A key behind all others is put at the end. -/
theorem insertEntry_of_forall_lt {key : String} (value : α) {entries : List (String × α)}
    (h : ∀ e ∈ entries, e.1 < key) : insertEntry key value entries = entries ++ [(key, value)] := by
  induction entries with
  | nil => rfl
  | cons entry rest ih =>
    obtain ⟨hentry, hrest⟩ := List.forall_mem_cons.1 h
    have hnlt : ¬key < entry.1 := fun hlt => String.lt_irrefl _ (String.lt_trans hlt hentry)
    have hne : key ≠ entry.1 := fun heq => String.lt_irrefl _ (heq ▸ hentry)
    rw [insertEntry, if_neg hnlt, if_neg hne, ih hrest, List.cons_append]

/-- Entries in order, behind all that are there, are put in as they are. -/
theorem toList_foldl_insert {entries : List (String × α)} {m : KeyMap α}
    (h : (m.toList ++ entries).Pairwise fun a b => a.1 < b.1) :
    (entries.foldl (fun m e => m.insert e.1 e.2) m).toList = m.toList ++ entries := by
  induction entries generalizing m with
  | nil => simp
  | cons entry rest ih =>
    have hlast : ∀ e ∈ m.toList, e.1 < entry.1 := fun e he =>
      (List.pairwise_append.1 h).2.2 e he entry List.mem_cons_self
    have hinsert : (m.insert entry.1 entry.2).toList = m.toList ++ [entry] :=
      insertEntry_of_forall_lt entry.2 hlast
    -- `entry` moves from the entries to the map, and the whole stays the same list.
    rw [List.foldl_cons, ih]
    · rw [hinsert, List.append_assoc, List.singleton_append]
    · rwa [hinsert, List.append_assoc, List.singleton_append]

/-- Entries that stand in order stay as they are. -/
theorem toList_ofList {entries : List (String × α)} (h : entries.Pairwise fun a b => a.1 < b.1) :
    (ofList entries).toList = entries :=
  toList_foldl_insert (m := empty) h

/-- Behind an entry that stands in order, its key does not come again. -/
theorem lookup_of_forall_lt {entry : String × α} {rest : List (String × α)}
    (h : ∀ e ∈ rest, entry.1 < e.1) : rest.lookup entry.1 = none := by
  rw [List.lookup_eq_none_iff]
  intro e he
  have hne : entry.1 ≠ e.1 := fun heq => String.lt_irrefl _ (heq ▸ h e he)
  simpa using hne

/-- A key of an ordered list does not come before the first one. -/
theorem not_lt_of_lookup_eq_some {entry : String × α} {rest : List (String × α)}
    (h : ∀ e ∈ rest, entry.1 < e.1) {key : String} {value : α}
    (hlookup : (entry :: rest).lookup key = some value) : ¬key < entry.1 := by
  intro hlt
  have hnone : (entry :: rest).lookup (key, value).1 = none := by
    refine lookup_of_forall_lt fun e he => ?_
    rcases List.mem_cons.1 he with rfl | he
    · exact hlt
    · exact String.lt_trans hlt (h e he)
  rw [hlookup] at hnone
  cases hnone

/-- Ordered lists that hold the same are the same. -/
theorem eq_of_forall_lookup_eq {entries entries' : List (String × α)}
    (h : entries.Pairwise fun a b => a.1 < b.1) (h' : entries'.Pairwise fun a b => a.1 < b.1)
    (hlookup : ∀ key, entries.lookup key = entries'.lookup key) : entries = entries' := by
  induction entries generalizing entries' with
  | nil =>
    cases entries' with
    | nil => rfl
    | cons entry' rest' =>
      have hkey := hlookup entry'.1
      rw [List.lookup_nil, lookup_cons, if_pos rfl] at hkey
      cases hkey
  | cons entry rest ih =>
    obtain ⟨hfirst, hrest⟩ := List.pairwise_cons.1 h
    have hkey := hlookup entry.1
    rw [lookup_cons, if_pos rfl] at hkey
    cases entries' with
    | nil => cases hkey
    | cons entry' rest' =>
      obtain ⟨hfirst', hrest'⟩ := List.pairwise_cons.1 h'
      have hkey' := hlookup entry'.1
      rw [lookup_cons entry'.1 entry' rest', if_pos rfl] at hkey'
      -- Neither of the first keys comes before the other, so that they are one.
      have heq : entry.1 = entry'.1 :=
        String.le_antisymm (String.not_lt.1 (not_lt_of_lookup_eq_some hfirst hkey'))
          (String.not_lt.1 (not_lt_of_lookup_eq_some hfirst' hkey.symm))
      have hvalue : entry.2 = entry'.2 := by
        rw [lookup_cons, if_pos heq] at hkey
        exact Option.some.inj hkey
      have hentry : entry = entry' := Prod.ext heq hvalue
      have htail : ∀ key, rest.lookup key = rest'.lookup key := by
        intro key
        by_cases hk : key = entry.1
        · rw [hk, lookup_of_forall_lt hfirst, heq, lookup_of_forall_lt hfirst']
        · have hboth := hlookup key
          rwa [lookup_cons, lookup_cons, if_neg hk, if_neg (heq ▸ hk)] at hboth
      rw [hentry, ih hrest hrest' htail]

/-- What is found stands among the entries. -/
theorem mem_of_lookup_eq_some {entries : List (String × α)} {key : String} {value : α}
    (h : entries.lookup key = some value) : (key, value) ∈ entries := by
  obtain ⟨before, behind, rfl, -⟩ := List.lookup_eq_some_iff.1 h
  exact List.mem_append_right _ List.mem_cons_self

/-- Where no key comes again, each entry is found. -/
theorem lookup_of_mem {entries : List (String × α)} (h : (entries.map (·.1)).Nodup)
    {e : String × α} (he : e ∈ entries) : entries.lookup e.1 = some e.2 := by
  induction entries with
  | nil => cases he
  | cons entry rest ih =>
    obtain ⟨hentry, hrest⟩ := List.nodup_cons.1 h
    rw [lookup_cons]
    rcases List.mem_cons.1 he with rfl | he
    · rw [if_pos rfl]
    · have hmem : e.1 ∈ rest.map (·.1) := List.mem_map_of_mem he
      have hne : e.1 ≠ entry.1 := by
        intro heq
        rw [heq] at hmem
        exact hentry hmem
      rw [if_neg hne, ih hrest he]

/-- With each key once, what is looked up is what stands in a list. -/
theorem lookup_eq_some_iff_mem {entries : List (String × α)} (h : (entries.map (·.1)).Nodup)
    {key : String} {value : α} : entries.lookup key = some value ↔ (key, value) ∈ entries :=
  ⟨mem_of_lookup_eq_some, lookup_of_mem h⟩

/-- With each key once, the order of the entries is nothing that a look-up finds. -/
theorem lookup_eq_of_perm {entries entries' : List (String × α)} (hperm : entries.Perm entries')
    (h : (entries.map (·.1)).Nodup) (key : String) : entries.lookup key = entries'.lookup key := by
  have h' : (entries'.map (·.1)).Nodup := (hperm.map _).nodup_iff.1 h
  refine Option.ext fun value => ?_
  rw [lookup_eq_some_iff_mem h, lookup_eq_some_iff_mem h', hperm.mem_iff]

/-- With each key once, entries make the same map in every order. -/
theorem ofList_eq_of_perm {entries entries' : List (String × α)} (hperm : entries.Perm entries')
    (h : (entries.map (·.1)).Nodup) : ofList entries = ofList entries' := by
  have h' : (entries'.map (·.1)).Nodup := (hperm.map _).nodup_iff.1 h
  refine ext (eq_of_forall_lookup_eq (ofList entries).sorted (ofList entries').sorted fun key => ?_)
  rw [lookup_ofList_of_nodup h, lookup_ofList_of_nodup h', lookup_eq_of_perm hperm h]

/-! ### Some of the entries -/

section Some

variable {β : Type} {g : String → α → Option β}

/-- Whether an entry is kept depends on its key alone, so the last of each key stays the last. -/
theorem lookup_filterMap (hg : ∀ key a b, (g key a).isSome = (g key b).isSome)
    (entries : List (String × α)) (key : String) :
    (entries.filterMap fun e => (g e.1 e.2).map (e.1, ·)).lookup key =
      (entries.lookup key).bind (g key) := by
  induction entries with
  | nil => rfl
  | cons e entries ih =>
    rw [List.filterMap_cons, lookup_cons]
    by_cases hkey : key = e.1
    · subst hkey
      rw [if_pos rfl, Option.bind_some]
      cases he : g e.1 e.2 with
      | some b => rw [Option.map_some, lookup_cons, if_pos rfl]
      | none =>
        rw [Option.map_none, ih]
        cases hentry : entries.lookup e.1 with
        | none => rfl
        | some a =>
          have hsome := hg e.1 a e.2
          rw [he, Option.isSome_none] at hsome
          exact Option.not_isSome_iff_eq_none.1 (by rw [Option.bind_some, hsome]; decide)
    · rw [if_neg hkey]
      cases g e.1 e.2 with
      | none => exact ih
      | some b => rw [Option.map_some, lookup_cons, if_neg hkey, ih]

/-- A map of the entries that are kept holds what is kept of the whole map. -/
theorem toList_ofList_filterMap (hg : ∀ key a b, (g key a).isSome = (g key b).isSome)
    (entries : List (String × α)) :
    (ofList (entries.filterMap fun e => (g e.1 e.2).map (e.1, ·))).toList =
      (ofList entries).toList.filterMap fun e => (g e.1 e.2).map (e.1, ·) := by
  refine eq_of_forall_lookup_eq (sorted _) ?_ fun key => ?_
  · refine List.pairwise_filterMap.2 ((ofList entries).sorted.imp ?_)
    intro e e' hlt b hb b' hb'
    obtain ⟨_, -, rfl⟩ := Option.map_eq_some_iff.1 hb
    obtain ⟨_, -, rfl⟩ := Option.map_eq_some_iff.1 hb'
    exact hlt
  · rw [lookup_ofList, ← List.filterMap_reverse, lookup_filterMap hg, lookup_filterMap hg,
      lookup_ofList]

end Some

/-! ### Maps as they are -/

/-- No key comes again in a map. -/
theorem nodup_keys (m : KeyMap α) : (m.toList.map (·.1)).Nodup := by
  refine List.pairwise_map.2 (m.sorted.imp fun hlt heq => ?_)
  exact String.lt_irrefl _ (heq ▸ hlt)

/-- A map is looked up like the list of its entries. -/
theorem get?_eq_lookup (m : KeyMap α) (key : String) : m.get? key = m.toList.lookup key := by
  unfold get?
  induction m.toList with
  | nil => rfl
  | cons entry rest ih =>
    rw [lookup_cons, List.find?_cons]
    by_cases hkey : key = entry.1
    · simp [hkey]
    · have hkey' : entry.1 ≠ key := fun heq => hkey heq.symm
      simp [hkey, hkey', ih]

/-- A map is the map of its entries. -/
theorem ofList_toList (m : KeyMap α) : ofList m.toList = m :=
  ext (toList_ofList m.sorted)

end KeyMap

end MachineTuning
