import MachineTuning.Proofs.Schema.ReadBack
import MachineTuning.Proofs.Yaml.Block.Nodes
import MachineTuning.Proofs.Yaml.Scalar

namespace MachineTuning

/-!
# Schemas — what is written is read from YAML nodes

A schema reads nodes if every value is read from each node that spells the document written for it.
As for JSON, this is settled part by part.

* `Schema.readsNodes_record` — records are read from nodes if their members are.
-/

open Yaml

namespace Schema

variable {α : Type}

/-- Every value is read from each node that spells what is written for it. -/
def ReadsNodes (schema : Schema α) : Prop :=
  ∀ a node, node.Spells (schema.toJson a) → ∀ anchors path, schema.ofNode anchors path node = .ok a

/-! ### Parts -/

/-- Texts are read from the scalars that spell them. -/
theorem readsNodes_text : text.ReadsNodes := by
  rintro s _ ⟨mark, style, rfl, -⟩ anchors path
  rfl

/-- Truth values are read from the scalars that spell them. -/
theorem readsNodes_flag : flag.ReadsNodes := by
  rintro b _ ⟨mark, rfl⟩ anchors path
  cases b <;> rfl

/-- A signed word is read from the scalar that spells its number. -/
theorem ofNode_int32 {s : String} {n : Int} {word : Int32} (hread : Scalar.signed? s = some n)
    (hword : int32OfInt? n = some word) (anchors : List (Nat × Node)) (path : Path) (mark : Mark) :
    int32.ofNode anchors path (.scalar { mark } .plain s) = .ok word := by
  have hopen : Scalar.isOpen { mark } .plain "int" = true := rfl
  simp only [ofNode, Node.target, hopen, if_true, hread, hword]

/-- Signed words are read from the scalars that spell them. -/
theorem readsNodes_int32 : int32.ReadsNodes := by
  rintro n _ ⟨mark, rfl⟩ anchors path
  have hlower := n.le_toInt
  have hupper := n.toInt_lt
  exact ofNode_int32 (Scalar.signed?_integerChars (by omega) (by omega)) (int32OfInt?_toInt n)
    anchors path mark

/-- An unsigned word is read from the scalar that spells its number. -/
theorem ofNode_uint32 {s : String} {n : Nat} {word : UInt32}
    (hread : Scalar.unsigned? 64 s = some n) (hword : uint32OfInt? n = some word)
    (anchors : List (Nat × Node)) (path : Path) (mark : Mark) :
    uint32.ofNode anchors path (.scalar { mark } .plain s) = .ok word := by
  have hopen : Scalar.isOpen { mark } .plain "int" = true := rfl
  -- Without a name of its own the bound of the word is computed digit by digit.
  obtain ⟨narrow, hnarrow⟩ : ∃ narrow, uint32OfInt? = narrow := ⟨_, rfl⟩
  rw [hnarrow] at hword
  rw [ofNode, hnarrow]
  simp only [Node.target, hopen, if_true, hread, hword]

/-- Unsigned words are read from the scalars that spell them. -/
theorem readsNodes_uint32 : uint32.ReadsNodes := by
  rintro n _ ⟨mark, rfl⟩ anchors path
  have hbound : n.toNat < 1 <<< 64 := by
    have hvalue : 1 <<< 64 = 0x10000000000000000 := rfl
    have hlt := n.toNat_lt
    omega
  exact ofNode_uint32 (Scalar.unsigned?_toDigits hbound) (uint32OfInt?_toNat n) anchors path mark

/-- A choice is read from its name if no two options share one. -/
theorem readsNodes_choice {options : List (String × α)} {name : α → String}
    (h : ∀ a, options.lookup (name a) = some a) : (choice options name).ReadsNodes := by
  rintro a _ ⟨mark, style, rfl, -⟩ anchors path
  simp [ofNode, Node.target, choiceName, optionNamed, h, placed, Except.mapError]

/-- The words for nothing are no integers. -/
theorem isNull_integerChars (n : Int) :
    Scalar.isNull (String.ofList (Json.integerChars n)) = false := by
  rw [Bool.eq_false_iff]
  intro hnull
  -- An integer has a character, and the words have none of its characters.
  have hword : ∀ word ∈ ["null", "Null", "NULL", "~"],
      ∀ c ∈ word.toList, ¬(c.isDigit ∨ c = '-') := by
    decide
  have hnot := hword _ (List.contains_iff_mem.1 hnull)
  rw [String.toList_ofList] at hnot
  obtain ⟨c, hc⟩ := List.exists_mem_of_ne_nil _ (Json.integerChars_ne_nil n)
  exact hnot c hc (Json.isDigit_or_of_mem_integerChars n c hc)

/-- A node that does not spell null does not leave an optional part out. -/
theorem isAbsent_of_spells {v : Json} (hv : v.IsExact) (hnull : v.isNull = false)
    {props : Properties} {style : ScalarStyle} {s : String}
    (h : (Node.scalar props style s).Spells v) : Scalar.isAbsent props style s = .ok false := by
  -- The words for truth and the digits are not among the spellings of null; a text that is one of
  -- these is written in quotes.
  cases hv with
  | null => cases hnull
  | boolean b =>
    obtain ⟨mark, heq⟩ := h
    obtain ⟨rfl, rfl, rfl⟩ := Node.scalar.inj heq
    cases b <;> rfl
  | @integer n =>
    obtain ⟨mark, heq⟩ := h
    obtain ⟨rfl, rfl, rfl⟩ := Node.scalar.inj heq
    have hempty : (String.ofList (Json.integerChars n)).isEmpty = false := by
      rw [Bool.eq_false_iff]
      intro hempty
      have hnil := congrArg String.toList (String.isEmpty_iff.1 hempty)
      rw [String.toList_ofList] at hnil
      exact Json.integerChars_ne_nil n hnil
    show Except.ok ((String.ofList (Json.integerChars n)).isEmpty ||
      Scalar.isNull (String.ofList (Json.integerChars n))) = _
    rw [hempty, isNull_integerChars]
    rfl
  | text t =>
    obtain ⟨mark, style, heq, hplain⟩ := h
    obtain ⟨rfl, rfl, rfl⟩ := Node.scalar.inj heq
    rw [Scalar.isAbsent]
    split
    · rfl
    · next hstyle =>
      obtain ⟨hempty, hnull⟩ := hplain (Classical.not_not.1 hstyle)
      rw [hempty, hnull]
      rfl
  | array =>
    obtain ⟨mark, nodes, heq, -⟩ := h
    cases heq
  | object =>
    obtain ⟨mark, nodes, heq, -⟩ := h
    cases heq

/-- An alias spells nothing by itself. -/
theorem not_spells_alias {v : Json} {mark : Mark} {anchor : Nat} :
    ¬(Node.alias mark anchor).Spells v := by
  intro h
  cases v with
  | null | boolean | number =>
    obtain ⟨mark, heq⟩ := h
    cases heq
  | text =>
    obtain ⟨mark, style, heq, -⟩ := h
    cases heq
  | array | object =>
    obtain ⟨mark, nodes, heq, -⟩ := h
    cases heq

/-- A part that may be missing is read from nodes if the part itself is and is never null. -/
theorem readsNodes_optional {inner : Schema α} (h : inner.ReadsNodes) (hnull : inner.NeverNull) :
    (optional inner).ReadsNodes := by
  intro a? node hspells anchors path
  cases a? with
  | none =>
    obtain ⟨mark, rfl⟩ := hspells
    rfl
  | some a =>
    have hread := h a node hspells anchors path
    match node, hspells, hread with
    | .scalar props style s, hspells, hread =>
      have habsent := isAbsent_of_spells (inner.isExact_toJson a) (hnull a) hspells
      simp only [ofNode, Node.target, habsent, hread]
      rfl
    | .sequence _ _, _, hread | .mapping _ _, _, hread =>
      simp only [ofNode, Node.target, hread]
      rfl
    | .alias _ _, hspells, _ => exact absurd hspells not_spells_alias

/-- Items are read one by one. -/
theorem readItems_eq_ok {item : Schema α} (h : item.ReadsNodes) (anchors : List (Nat × Node))
    (path : Path) {as : List α} {nodes : List Node}
    (hspells : Node.SpellItems nodes (as.map item.toJson)) (index : Nat) :
    readItems path (fun path node => item.ofNode anchors path node) index nodes = .ok as := by
  induction as generalizing nodes index with
  | nil =>
    obtain rfl := hspells
    rfl
  | cons a as ih =>
    obtain ⟨first, rest, rfl, hfirst, hrest⟩ := hspells
    simp only [readItems, h a first hfirst, ih hrest, bind, Except.bind]
    rfl

/-- A list is read from nodes if its items are. -/
theorem readsNodes_list {item : Schema α} (h : item.ReadsNodes) : (list item).ReadsNodes := by
  rintro as _ ⟨mark, nodes, rfl, hspells⟩ anchors path
  simp only [ofNode, Node.target, Node.items?, readItems_eq_ok h anchors path hspells]
  rfl

/-- A key is read from a scalar with its text. -/
theorem readKey_eq_ok {node : Node} {key : String} (h : node.IsText key)
    (anchors : List (Nat × Node)) (path : Path) (expected : String) :
    readKey anchors path expected node = .ok (key, .member path key) := by
  obtain ⟨mark, style, rfl, -⟩ := h
  rfl

/-- Labels are read from scalars, key by key. -/
theorem readLabels_eq_ok (anchors : List (Nat × Node)) (path : Path)
    {entries : List (String × String)} {nodes : List (Node × Node)}
    (hspells : Node.SpellMembers nodes (entries.map fun e => (e.1, .text e.2))) :
    readLabels anchors path nodes = .ok entries := by
  induction entries generalizing nodes with
  | nil =>
    obtain rfl := hspells
    rfl
  | cons e entries ih =>
    obtain ⟨key, value, rest, rfl, hkey, ⟨mark, style, rfl, -⟩, hrest⟩ := hspells
    simp only [readLabels, readKey_eq_ok hkey, Node.target, ih hrest, bind, Except.bind]
    rfl

/-- Labels are read from the mappings that spell them. -/
theorem readsNodes_labels : labels.ReadsNodes := by
  rintro m _ ⟨mark, nodes, rfl, hspells⟩ anchors path
  simp only [ofNode, Node.target, Node.members?, readLabels_eq_ok anchors path hspells, bind,
    Except.bind, KeyMap.ofList_toList]
  rfl

end Schema

/-! ### Records -/

namespace Schema

variable {α : Type} {anchors : List (Nat × Node)} {path : Path}

/-- A declared member is read as the first of the changes. -/
theorem readMembers_cons_eq_ok {read? : String → Path → Node → Option (Except Fault (α → α))}
    {seen : List String} {keyNode value : Node} {members : List (Node × Node)} {key : String}
    {update : α → α} {updates : List (String × (α → α))} (hkey : keyNode.IsText key)
    (hread : read? key (.member path key) value = some (.ok update)) (hseen : key ∉ seen)
    (hmembers : readMembers anchors path read? (key :: seen) members = .ok updates) :
    readMembers anchors path read? seen ((keyNode, value) :: members) =
      .ok ((key, update) :: updates) := by
  rw [readMembers, readKey_eq_ok hkey]
  simp only [bind, Except.bind, hread, if_neg hseen, hmembers]
  rfl

/-- A mapping is read as the record that its changes make. -/
theorem ofNode_record_eq_ok {name : String} {blank a : α} {fields : Fields α}
    {nodes : List (Node × Node)} (updates : List (String × (α → α)))
    (hmembers : readMembers anchors path
      (fun key path value => fields.ofNodeMember? anchors key path value) [] nodes = .ok updates)
    (hcomplete : fields.complete updates blank = .ok a) (mark : Mark) :
    (record name blank fields).ofNode anchors path (.mapping { mark } nodes) = .ok a := by
  simp only [ofNode, Node.target, Node.members?, hmembers, hcomplete, bind, Except.bind]
  rfl

end Schema

namespace Fields

variable {α : Type}

/-- Every member is read from nodes. -/
def EachReadsNodes {α : Type} : Fields α → Prop
  | .nil => True
  | .cons _ _ schema _ _ rest => schema.ReadsNodes ∧ rest.EachReadsNodes

/-- A member's node is read as the change to the value that was written. -/
theorem ofNodeMember?_of_mem {fields : Fields α} (h : fields.EachReadsNodes)
    (hkeys : fields.keys.Nodup) {a : α} {m : String × Json} (hm : m ∈ fields.toMembers a)
    {node : Node} (hspells : node.Spells m.2) (anchors : List (Nat × Node)) (path : Path) :
    fields.ofNodeMember? anchors m.1 path node = some (.ok (fields.change a m.1)) := by
  fun_induction keys fields with
  | case1 => cases hm
  | case2 α β key required schema get set rest ih =>
    obtain ⟨hschema, hrest⟩ := h
    obtain ⟨hkey, hkeys⟩ := List.nodup_cons.1 hkeys
    rw [ofNodeMember?, change]
    rcases mem_toMembers_cons hkey hm with rfl | ⟨hname, hm⟩
    · rw [if_pos rfl, if_pos rfl, hschema _ _ hspells]
      rfl
    · rw [if_neg hname, if_neg hname]
      exact ih hrest hkeys hm

/-- Written members are read as their changes, each once. -/
theorem readMembers_eq_ok {fields : Fields α} (h : fields.EachReadsNodes)
    (hkeys : fields.keys.Nodup) (a : α) (anchors : List (Nat × Node)) (path : Path)
    {members : List (String × Json)} (hmembers : ∀ m ∈ members, m ∈ fields.toMembers a)
    (hnodup : (members.map (·.1)).Nodup) (seen : List String)
    (hseen : ∀ m ∈ members, m.1 ∉ seen) {nodes : List (Node × Node)}
    (hspells : Node.SpellMembers nodes members) :
    readMembers anchors path (fun key path value => fields.ofNodeMember? anchors key path value)
      seen nodes = .ok (members.map fun m => (m.1, fields.change a m.1)) := by
  induction members generalizing nodes seen with
  | nil =>
    obtain rfl := hspells
    rfl
  | cons m members ih =>
    obtain ⟨keyNode, valueNode, rest, rfl, hkey, hvalue, hrest⟩ := hspells
    obtain ⟨hm, hmembers⟩ := List.forall_mem_cons.1 hmembers
    obtain ⟨hfirst, hseen⟩ := List.forall_mem_cons.1 hseen
    obtain ⟨hnotin, hnodup⟩ := List.nodup_cons.1 hnodup
    -- The names that were seen grow by one member at a time, and the ones to come are never among
    -- them.
    have hseen' : ∀ m' ∈ members, m'.1 ∉ m.1 :: seen := by
      intro m' hm'
      rw [List.mem_cons, not_or]
      exact ⟨fun heq => hnotin (List.mem_map.2 ⟨m', hm', heq⟩), hseen m' hm'⟩
    have hmember := ofNodeMember?_of_mem h hkeys hm hvalue anchors (.member path m.1)
    exact Schema.readMembers_cons_eq_ok hkey hmember hfirst (ih hmembers hnodup _ hseen' hrest)

end Fields

/-- **Records are read from nodes** if their members are, have different names and make up all of
    the record. -/
theorem Schema.readsNodes_record {α : Type} {name : String} {blank : α} {fields : Fields α}
    (h : fields.EachReadsNodes) (hrequired : fields.WritesRequired) (hkeys : fields.keys.Nodup)
    (hrestore : ∀ a, fields.restore a blank = a) : (record name blank fields).ReadsNodes := by
  rintro a _ ⟨mark, nodes, rfl, hspells⟩ anchors path
  have hmembers := Fields.readMembers_eq_ok h hkeys a anchors path (fun _ hm => hm)
    (Fields.nodup_toMembers hkeys a) [] (fun _ _ => List.not_mem_nil) hspells
  have hcomplete : fields.complete
      ((fields.toMembers a).map fun m => (m.1, fields.change a m.1)) blank = .ok a := by
    rw [Fields.complete_of_lookup hrequired hkeys, hrestore]
    intro key hkey
    rw [Fields.lookup_map]
  exact ofNode_record_eq_ok _ hmembers hcomplete mark

mutual
/-- **Regular schemas read nodes.** -/
theorem Schema.IsRegular.readsNodes {α : Type} : ∀ {schema : Schema α}, schema.IsRegular →
    schema.ReadsNodes
  | .text, _ => Schema.readsNodes_text
  | .flag, _ => Schema.readsNodes_flag
  | .int32, _ => Schema.readsNodes_int32
  | .uint32, _ => Schema.readsNodes_uint32
  | .optional inner, h => by
    obtain ⟨hinner, hnull⟩ : inner.IsRegular ∧ inner.NeverNull := h
    exact Schema.readsNodes_optional hinner.readsNodes hnull
  | .list item, h => by
    have hitem : item.IsRegular := h
    exact Schema.readsNodes_list hitem.readsNodes
  | .labels, _ => Schema.readsNodes_labels
  | .choice _ _, h => Schema.readsNodes_choice h
  | .record _ blank fields, h => by
    obtain ⟨hkeys, hrestore, hfields⟩ : fields.keys.Nodup ∧
      (∀ a, fields.restore a blank = a) ∧ fields.IsRegular := h
    exact Schema.readsNodes_record hfields.eachReadsNodes hfields.writesRequired hkeys hrestore

/-- Each member of a regular record is read from nodes. -/
theorem Fields.IsRegular.eachReadsNodes {α : Type} : ∀ {fields : Fields α}, fields.IsRegular →
    fields.EachReadsNodes
  | .nil, _ => trivial
  | .cons _ required schema _ _ rest, h => by
    obtain ⟨hschema, -, hrest⟩ : schema.IsRegular ∧
      (required = true → schema.NeverNull) ∧ rest.IsRegular := h
    exact ⟨hschema.readsNodes, hrest.eachReadsNodes⟩
end

/-! ### Documents -/

namespace Schema

open Yaml

variable {α : Type} {name : String} {blank : α} {fields : Fields α} {a b : α}

/-- A record is read from its JSON text, with its texts as YAML reads them. -/
theorem read_compact (h : (record name blank fields).ReadsNodes)
    (hdocument : IsDocument (.object (fields.toMembers a)))
    (hb : (record name blank fields).toJson b =
      (Json.object (fields.toMembers a)).mapTexts readText) :
    Yaml.read (record name blank fields) (Json.object (fields.toMembers a)).compact = .ok b := by
  obtain ⟨document, hparse, hspells⟩ :=
    parse?_compact_of_isDocument (fields.isExact_toMembers a) hdocument
  rw [← hb] at hspells
  rw [Yaml.read, hparse]
  simp only [h b document.root hspells]
  rfl

/-- If its JSON text is no YAML document, nothing is read. -/
theorem read_compact_of_not_isDocument
    (hdocument : ¬IsDocument (.object (fields.toMembers a))) :
    Yaml.read (record name blank fields) (Json.object (fields.toMembers a)).compact =
      .error .malformed := by
  rw [Yaml.read, parse?_compact_of_not_isDocument (fields.isExact_toMembers a) hdocument]

/-- **A record is read from its YAML document**, whatever its texts are, if it has a member. -/
theorem read_print (h : (record name blank fields).ReadsNodes) (hne : fields.toMembers a ≠ []) :
    Yaml.read (record name blank fields) (print (.object (fields.toMembers a))) = .ok a := by
  obtain ⟨document, hparse, hspells⟩ := parse?_print_object hne (fields.isExact_toMembers a)
  rw [Yaml.read, hparse]
  simp only [h a document.root hspells]
  rfl

end Schema

end MachineTuning
