import MachineTuning.Proofs.Yaml.Block.Tokens
import MachineTuning.Proofs.Yaml.JsonNodes

namespace MachineTuning.Yaml

/-!
# YAML documents as nodes

The tokens of a value are read as a node that spells it: dashes open the items of a sequence, which
ends with its block or, directly below its key, in front of what is no dash.

* `Node.ReadsEntries` — what the readers of both kinds of sequences have in common;
* `takesBlock_of_isExact` — a node for each value;
* `parse?_print_object` — a document for each mapping with members.
-/

namespace Node

open Scanner (textKind)

variable {handles : TagHandles} {fuel : Nat} {indentless : Bool} {o : Outlook}
  {kind : TokenKind} {kinds rest : List TokenKind}

/-! ### Readers of blocks -/

/-- A block sequence is its entries. -/
theorem take?_blockSequence (h : o.kinds = .blockSequenceStart :: kinds) :
    take? handles (fuel + 1) true indentless o =
      (takeBlockItems? handles fuel o.drop).bind fun (items, o') =>
        some (.sequence { mark := o.start } items, o') := by
  have hkind := o.kind_eq h
  rw [take?]
  simp [hkind, takeProperties?_of_not_isProperty h rfl]

/-- A block mapping is its members. -/
theorem take?_blockMapping (h : o.kinds = .blockMappingStart :: kinds) :
    take? handles (fuel + 1) true indentless o =
      (takeBlockMembers? handles fuel o.drop).bind fun (members, o') =>
        some (.mapping { mark := o.start } members, o') := by
  have hkind := o.kind_eq h
  rw [take?]
  simp [hkind, takeProperties?_of_not_isProperty h rfl]

/-- A sequence that no block is opened for. -/
theorem take?_indentless (h : o.kinds = .blockEntry :: kinds) :
    take? handles (fuel + 1) true true o =
      (takeIndentlessItems? handles fuel o).bind fun (items, o') =>
        some (.sequence { mark := o.start } items, o') := by
  have hkind := o.kind_eq h
  rw [take?]
  simp [hkind, takeProperties?_of_not_isProperty h rfl]

/-- A reader of items behind dashes takes one after another, up to what ends them. -/
structure ReadsEntries (handles : TagHandles)
    (items? : Nat → Outlook → Option (List Node × Outlook)) (ending rest : List TokenKind) :
    Prop where
  entry : ∀ {fuel : Nat} {o : Outlook} {kind : TokenKind} {kinds : List TokenKind},
    o.kinds = .blockEntry :: kind :: kinds → kind ≠ .blockEntry → endsBlockPart kind = false →
    items? (fuel + 1) o = (take? handles fuel true false o.drop).bind fun r =>
      (items? fuel r.2).bind fun r' => some (r.1 :: r'.1, r'.2)
  ending : ∀ {fuel : Nat} {o : Outlook}, o.kinds = ending →
    Takes (items? (fuel + 1) o) True (· = []) rest

/-- The entries of a block sequence are taken up to the end of the block. -/
theorem readsEntries_takeBlockItems? (rest : List TokenKind) :
    ReadsEntries handles (takeBlockItems? handles) (.blockEnd :: rest) rest where
  entry {fuel o kind kinds} h hentry hkind := by
    have hdash := o.kind_eq h
    have hbehind := o.drop.kind_eq (o.kinds_drop h)
    have hend : kind ≠ .blockEnd := by
      rintro rfl
      cases hkind
    rw [takeBlockItems?]
    simp [hdash, hbehind, hentry, hend]
  ending {fuel o} h := by
    have heq : takeBlockItems? handles (fuel + 1) o = some ([], o.drop) := by
      rw [takeBlockItems?, o.kind_eq h]
    exact .of_eq_some heq rfl (o.kinds_drop h)

/-- Entries that are not indented are taken up to what is no entry. -/
theorem readsEntries_takeIndentlessItems? (hne : kind ≠ .blockEntry) :
    ReadsEntries handles (takeIndentlessItems? handles) (kind :: rest) (kind :: rest) where
  entry {fuel o kind kinds} h hentry hkind := by
    have hdash := o.kind_eq h
    have hbehind := o.drop.kind_eq (o.kinds_drop h)
    rw [takeIndentlessItems?]
    simp [hdash, hbehind, hentry, hkind]
  ending {fuel o} h := by
    have hkind := o.kind_eq h
    have heq : takeIndentlessItems? handles (fuel + 1) o = some ([], o) := by
      rw [takeIndentlessItems?]
      simp [hkind]
    exact .of_eq_some heq rfl h

/-- The end of a block ends its members. -/
theorem takeBlockMembers?_end (h : o.kinds = .blockEnd :: rest) :
    takeBlockMembers? handles (fuel + 1) o = some ([], o.drop) := by
  rw [takeBlockMembers?, o.kind_eq h]

/-- A member is a scalar for the key and a value, and others follow it. -/
theorem takeBlockMembers?_key {style : ScalarStyle} {text : List Char}
    (h : o.kinds = .key :: .scalar style text :: .value :: kind :: kinds)
    (hkind : endsBlockPart kind = false) :
    takeBlockMembers? handles (fuel + 3) o =
      (take? handles (fuel + 1) true true o.drop.drop.drop).bind fun r =>
        (takeBlockMembers? handles (fuel + 2) r.2).bind fun r' =>
          some ((.scalar { mark := o.drop.start } style (String.ofList text), r.1) :: r'.1,
            r'.2) := by
  have hscalar := o.kinds_drop h
  have hvalue := o.drop.kinds_drop hscalar
  -- The key is a scalar behind its mark; the value is whatever stands behind the mark of the value.
  have hkey : takeBlockPart? handles (fuel + 2) o =
      some (.scalar { mark := o.drop.start } style (String.ofList text), o.drop.drop) := by
    rw [takeBlockPart?, o.drop.kind_eq hscalar, take?_scalar hscalar]
    rfl
  have hpart : takeBlockPart? handles (fuel + 2) o.drop.drop =
      take? handles (fuel + 1) true true o.drop.drop.drop := by
    have hbehind := o.drop.drop.drop.kind_eq (o.drop.drop.kinds_drop hvalue)
    rw [takeBlockPart?, hbehind, hkind]
    rfl
  have hmark := o.drop.drop.kind_eq hvalue
  rw [takeBlockMembers?]
  simp [o.kind_eq h, hkey, hmark, hpart]

end Node

/-! ### Reading values -/

section Values

open Node (take? takeBlockMembers? ReadsEntries SpellItems SpellMembers endsBlockPart)
open Scanner (textKind)

variable {handles : TagHandles} {o : Outlook} {ending rest : List TokenKind} {fuel : Nat}

/-- A text in its own style is never taken for nothing. -/
theorem Node.isText_ofText (mark : Mark) (s : String) :
    (Node.scalar { mark } (Style.ofText s).scalarStyle (String.ofList s.toList)).IsText s := by
  rw [String.ofList_toList]
  refine ⟨mark, _, rfl, fun hplain => Style.not_isNull_of_plain ?_⟩
  cases hstyle : Style.ofText s with
  | plain => rfl
  | _ => simp [hstyle, Style.scalarStyle] at hplain

/-- What a value becomes has a first token, which ends nothing; behind a dash it is none. -/
theorem exists_blockKinds_eq_cons (sameLine : Bool) : ∀ v : Json,
    ∃ kind kinds, blockKinds sameLine v = kind :: kinds ∧ endsBlockPart kind = false ∧
      (sameLine = true → kind ≠ .blockEntry)
  | .null | .boolean _ | .number (.integer _) | .number (.real _) | .text _ | .array []
  | .object [] | .object ((_, _) :: _) => ⟨_, _, rfl, rfl, fun _ => nofun⟩
  | .array (_ :: _) => by
    cases sameLine with
    | false => exact ⟨_, _, rfl, rfl, nofun⟩
    | true => exact ⟨_, _, rfl, rfl, fun _ => nofun⟩

/-- From the tokens of a value a node is taken that spells it.  Directly below a key no dash may
    follow. -/
def TakesBlock (handles : TagHandles) (v : Json) : Prop :=
  ∀ ⦃sameLine indentless : Bool⦄ ⦃o : Outlook⦄ ⦃rest : List TokenKind⦄ ⦃fuel : Nat⦄,
    o.kinds = blockKinds sameLine v ++ rest → 2 * (blockKinds sameLine v).length ≤ fuel →
    (sameLine = false →
      indentless = true ∧ ∃ kind kinds, rest = kind :: kinds ∧ kind ≠ .blockEntry) →
    Takes (take? handles fuel true indentless o) True (·.Spells v) rest

/-- Entries that can be taken one by one are taken in a row. -/
theorem takes_entries {items? : Nat → Outlook → Option (List Node × Outlook)}
    (hreads : ReadsEntries handles items? ending rest) {items : List Json}
    (h : ∀ v ∈ items, TakesBlock handles v) (ho : o.kinds = entryKinds items ++ ending)
    (hfuel : 2 * (entryKinds items).length ≤ fuel + 1) (hpos : 0 < fuel) :
    Takes (items? fuel o) True (SpellItems · items) rest := by
  induction items generalizing o fuel with
  | nil =>
    obtain ⟨fuel, rfl⟩ := Nat.exists_eq_succ_of_ne_zero (Nat.ne_of_gt hpos)
    exact hreads.ending ho
  | cons item items ih =>
    obtain ⟨hitem, hitems⟩ := List.forall_mem_cons.1 h
    obtain ⟨kind, kinds, hkinds, hends, hentry⟩ := exists_blockKinds_eq_cons true item
    obtain ⟨fuel, rfl⟩ := Nat.exists_eq_succ_of_ne_zero (Nat.ne_of_gt hpos)
    have hlength : (blockKinds true item).length = kinds.length + 1 := by
      rw [hkinds, List.length_cons]
    simp only [entryKinds, List.cons_append, List.append_assoc, List.length_cons,
      List.length_append] at ho hfuel
    have hfirst : o.kinds = .blockEntry :: kind :: (kinds ++ (entryKinds items ++ ending)) := by
      rw [ho, hkinds, List.cons_append]
    rw [hreads.entry hfirst (hentry rfl) hends]
    -- Two steps for every token cover the dash and the item behind it.
    have htake : Takes (take? handles fuel true false o.drop) True (·.Spells item)
        (entryKinds items ++ ending) := hitem (o.kinds_drop ho) (by omega) (by simp)
    refine htake.andThen fun node o hnode ho => ?_
    refine (ih hitems ho (by omega) (by omega)).andThen fun nodes o hnodes ho => ?_
    exact .of_eq_some rfl ⟨node, nodes, rfl, hnode, hnodes⟩ ho

/-- A member of a block, and those behind it. -/
theorem takes_blockMember {key : String} {value behind : List TokenKind} {valueFits : Node → Prop}
    {othersFit : List (Node × Node) → Prop}
    (hstarts : ∃ kind kinds, value = kind :: kinds ∧ endsBlockPart kind = false)
    (ho : o.kinds = .key :: textKind key :: .value :: (value ++ behind))
    (hvalue : ∀ o : Outlook, o.kinds = value ++ behind →
      Takes (take? handles (fuel + 1) true true o) True valueFits behind)
    (hbehind : ∀ o : Outlook, o.kinds = behind →
      Takes (takeBlockMembers? handles (fuel + 2) o) True othersFit rest) :
    Takes (takeBlockMembers? handles (fuel + 3) o) True
      (fun nodes => ∃ keyNode valueNode others, nodes = (keyNode, valueNode) :: others ∧
        keyNode.IsText key ∧ valueFits valueNode ∧ othersFit others) rest := by
  obtain ⟨kind, kinds, rfl, hends⟩ := hstarts
  rw [Node.takeBlockMembers?_key ho hends]
  have hdropped := o.drop.drop.kinds_drop (o.drop.kinds_drop (o.kinds_drop ho))
  refine (hvalue _ hdropped).andThen fun node o' hnode ho' => ?_
  refine (hbehind o' ho').andThen fun nodes o'' hnodes ho'' => ?_
  exact .of_eq_some rfl ⟨_, node, nodes, rfl, Node.isText_ofText _ key, hnode, hnodes⟩ ho''

/-- Members whose values can be taken one by one are taken in a row. -/
theorem takes_pairs {members : List (String × Json)} (h : ∀ m ∈ members, TakesBlock handles m.2)
    (ho : o.kinds = pairKinds members ++ .blockEnd :: rest)
    (hfuel : 2 * (pairKinds members).length ≤ fuel + 1) (hpos : 0 < fuel) :
    Takes (takeBlockMembers? handles fuel o) True (SpellMembers · members) rest := by
  induction members generalizing o fuel with
  | nil =>
    obtain ⟨fuel, rfl⟩ := Nat.exists_eq_succ_of_ne_zero (Nat.ne_of_gt hpos)
    exact .of_eq_some (Node.takeBlockMembers?_end ho) rfl (o.kinds_drop ho)
  | cons member members ih =>
    obtain ⟨key, value⟩ := member
    obtain ⟨hmember, hmembers⟩ : TakesBlock handles value ∧ ∀ m ∈ members, TakesBlock handles m.2 :=
      List.forall_mem_cons.1 h
    -- Behind a value comes the next key or the end of the block, and never a dash.
    have hbehind : ∃ kind kinds, pairKinds members ++ .blockEnd :: rest = kind :: kinds ∧
        kind ≠ .blockEntry := by
      cases members with
      | nil => exact ⟨_, _, rfl, nofun⟩
      | cons member members => exact ⟨_, _, rfl, nofun⟩
    obtain ⟨kind, kinds, hkinds, hends, -⟩ :=
      exists_blockKinds_eq_cons (!Style.admitsSimpleKey key) value
    simp only [pairKinds, List.cons_append, List.append_assoc, List.length_cons,
      List.length_append] at ho hfuel
    obtain ⟨fuel, rfl⟩ : ∃ n, fuel = n + 3 := ⟨fuel - 3, by omega⟩
    exact takes_blockMember ⟨kind, kinds, hkinds, hends⟩ ho
      (fun _ ho' => hmember ho' (by omega) fun _ => ⟨rfl, hbehind⟩)
      fun _ ho' => ih hmembers ho' (by omega) (by omega)

/-- A scalar is taken as the value that it spells. -/
theorem takesBlock_scalar {v : Json} {style : ScalarStyle} {text : List Char}
    (hkinds : ∀ sameLine, blockKinds sameLine v = [.scalar style text])
    (hspells : ∀ mark, (Node.scalar { mark } style (String.ofList text)).Spells v) :
    TakesBlock handles v := by
  intro sameLine indentless o rest fuel ho hfuel _
  rw [hkinds] at ho hfuel
  rw [List.length_singleton] at hfuel
  obtain ⟨fuel, rfl⟩ : ∃ n, fuel = n + 1 := ⟨fuel - 1, by omega⟩
  exact .of_eq_some (Node.take?_scalar ho) (hspells o.start) (o.kinds_drop ho)

/-- Items directly below their key, up to what is no dash. -/
theorem takes_itemsBelow {item : Json} {items : List Json} {kind : TokenKind}
    (h : ∀ v ∈ item :: items, TakesBlock handles v) (hne : kind ≠ .blockEntry)
    (ho : o.kinds = blockKinds false (.array (item :: items)) ++ kind :: rest)
    (hfuel : 2 * (blockKinds false (.array (item :: items))).length ≤ fuel) :
    Takes (take? handles fuel true true o) True (·.Spells (.array (item :: items)))
      (kind :: rest) := by
  have hkinds : blockKinds false (.array (item :: items)) = entryKinds (item :: items) := by
    simp [blockKinds, entryKinds]
  rw [hkinds] at ho hfuel
  have hpos : 1 ≤ (entryKinds (item :: items)).length := Nat.succ_pos _
  have hdash : o.kinds =
      .blockEntry :: (blockKinds true item ++ entryKinds items ++ kind :: rest) := ho
  obtain ⟨fuel, rfl⟩ : ∃ n, fuel = n + 2 := ⟨fuel - 2, by omega⟩
  rw [Node.take?_indentless hdash]
  -- There is no token for the end of these items: the token behind them, which is no dash, ends
  -- them.
  have hitems := takes_entries (Node.readsEntries_takeIndentlessItems? hne) h ho hfuel
    (Nat.succ_pos fuel)
  refine hitems.andThen fun nodes o' hnodes ho' => ?_
  exact .of_eq_some rfl ⟨o.start, nodes, rfl, hnodes⟩ ho'

/-- Items in a block of their own, up to its end. -/
theorem takes_itemsBehind {item : Json} {items : List Json} (indentless : Bool)
    (h : ∀ v ∈ item :: items, TakesBlock handles v)
    (ho : o.kinds = blockKinds true (.array (item :: items)) ++ rest)
    (hfuel : 2 * (blockKinds true (.array (item :: items))).length ≤ fuel) :
    Takes (take? handles fuel true indentless o) True (·.Spells (.array (item :: items))) rest := by
  have hkinds : blockKinds true (.array (item :: items)) ++ rest =
      .blockSequenceStart :: (entryKinds (item :: items) ++ .blockEnd :: rest) := by
    simp [blockKinds, entryKinds]
  have hlength : (blockKinds true (.array (item :: items))).length =
      (entryKinds (item :: items)).length + 2 := by
    simp [blockKinds, entryKinds, Nat.add_assoc]
  rw [hkinds] at ho
  obtain ⟨fuel, rfl⟩ : ∃ n, fuel = n + 2 := ⟨fuel - 2, by omega⟩
  rw [Node.take?_blockSequence ho]
  have hitems : Takes (Node.takeBlockItems? handles (fuel + 1) o.drop) True _ rest :=
    takes_entries (Node.readsEntries_takeBlockItems? rest) h (o.kinds_drop ho) (by omega)
      (Nat.succ_pos fuel)
  refine hitems.andThen fun nodes o' hnodes ho' => ?_
  exact .of_eq_some rfl ⟨o.start, nodes, rfl, hnodes⟩ ho'

/-- An array is taken from its block if its items are taken from theirs. -/
theorem takesBlock_array {items : List Json} (h : ∀ v ∈ items, TakesBlock handles v) :
    TakesBlock handles (.array items) := by
  intro sameLine indentless o rest fuel ho hfuel hbelow
  cases items with
  | nil =>
    obtain ⟨fuel, rfl⟩ : ∃ n, fuel = n + 2 := ⟨fuel - 2, by
      rw [blockKinds, List.length_cons, List.length_singleton] at hfuel
      omega⟩
    rw [Node.take?_flowSequence ho, Node.takeFlowItems?_end (o.kinds_drop ho)]
    exact .of_eq_some rfl ⟨o.start, [], rfl, rfl⟩ (o.drop.kinds_drop (o.kinds_drop ho))
  | cons item items =>
    cases sameLine with
    | false =>
      obtain ⟨rfl, kind, kinds, rfl, hne⟩ := hbelow rfl
      exact takes_itemsBelow h hne ho hfuel
    | true => exact takes_itemsBehind indentless h ho hfuel

/-- An object is taken from its block if the values of its members are taken from theirs. -/
theorem takesBlock_object {members : List (String × Json)}
    (h : ∀ m ∈ members, TakesBlock handles m.2) : TakesBlock handles (.object members) := by
  intro sameLine indentless o rest fuel ho hfuel _
  -- An empty object is written in braces, any other as a block.
  cases members with
  | nil =>
    obtain ⟨fuel, rfl⟩ : ∃ n, fuel = n + 2 := ⟨fuel - 2, by
      rw [blockKinds, List.length_cons, List.length_singleton] at hfuel
      omega⟩
    rw [Node.take?_flowMapping ho, Node.takeFlowMembers?_end (o.kinds_drop ho)]
    exact .of_eq_some rfl ⟨o.start, [], rfl, rfl⟩ (o.drop.kinds_drop (o.kinds_drop ho))
  | cons member members =>
    have hkinds : blockKinds sameLine (.object (member :: members)) =
        .blockMappingStart :: pairKinds (member :: members) ++ [.blockEnd] := by
      rw [blockKinds, pairKinds]
    rw [hkinds] at ho hfuel
    rw [List.length_append, List.length_cons, List.length_singleton] at hfuel
    have hstart : o.kinds = .blockMappingStart ::
        (pairKinds (member :: members) ++ .blockEnd :: rest) := by
      rw [ho, List.cons_append, List.cons_append, List.append_assoc, List.singleton_append]
    obtain ⟨fuel, rfl⟩ : ∃ n, fuel = n + 2 := ⟨fuel - 2, by omega⟩
    rw [Node.take?_blockMapping hstart]
    have hmembers := takes_pairs h (o.kinds_drop hstart) (by omega) (Nat.succ_pos fuel)
    refine hmembers.andThen fun nodes o' hnodes ho' => ?_
    exact .of_eq_some rfl ⟨o.start, nodes, rfl, hnodes⟩ ho'

/-- **A node for each value.** -/
theorem takesBlock_of_isExact {v : Json} (h : v.IsExact) : TakesBlock handles v := by
  induction h with
  | null => exact takesBlock_scalar (fun _ => rfl) fun mark => ⟨mark, rfl⟩
  | boolean b =>
    refine takesBlock_scalar (fun _ => rfl) fun mark => ⟨mark, ?_⟩
    rw [String.ofList_toList]
  | integer => exact takesBlock_scalar (fun _ => rfl) fun mark => ⟨mark, rfl⟩
  | text s => exact takesBlock_scalar (fun _ => rfl) fun mark => Node.isText_ofText mark s
  | array _ ih => exact takesBlock_array ih
  | object _ ih => exact takesBlock_object ih

end Values

/-! ### Documents -/

/-- A text is a document if its tokens are those of a block from which a node is taken. -/
theorem exists_parse?_of_takes {cs : List Char} {inside : List TokenKind} (post : Node → Prop)
    (hscan : (Token.ofChars? cs).map (List.map Token.kind) =
      some (.blockMappingStart :: inside ++ [.blockEnd, .streamEnd]))
    (htakes : ∀ (o : Outlook) (fuel : Nat),
      o.kinds = .blockMappingStart :: inside ++ [.blockEnd] ++ [.streamEnd] →
      2 * (inside.length + 2) ≤ fuel →
        Takes (Node.take? .standard fuel true false o) True post [.streamEnd]) :
    ∃ document, Document.parse? (String.ofList cs) = some document ∧ post document.root := by
  obtain ⟨tokens, hscan, htokens⟩ := Option.map_eq_some_iff.1 hscan
  have hkinds : Outlook.kinds { tokens } =
      .blockMappingStart :: inside ++ [.blockEnd] ++ [.streamEnd] := by
    rw [List.append_assoc]
    exact htokens
  -- The reader is given four steps for each token.
  have hfuel : 2 * (inside.length + 2) ≤ 4 * tokens.length + 4 := by
    have hlength := congrArg List.length htokens
    simp only [List.length_map, List.length_append, List.length_cons, List.length_nil] at hlength
    omega
  obtain ⟨node, o, hnode, hpost, ho⟩ := (htakes { tokens } _ hkinds hfuel).some trivial
  rw [← takeDocument?_eq htokens (by simp) rfl] at hnode
  refine ⟨⟨node, node.anchored⟩, ?_, hpost⟩
  rw [Document.parse?, String.toList_ofList, hscan]
  simp [ofTokens?_eq_some hnode ho]

/-- **A mapping as a YAML document.**  What is written for one with members is a document whose root
    spells it. -/
theorem parse?_print_object {members : List (String × Json)} (hne : members ≠ [])
    (h : ∀ m ∈ members, m.2.IsExact) :
    ∃ document, Document.parse? (print (.object members)) = some document ∧
      document.root.Spells (.object members) := by
  have hscan := ofChars?_printMembers hne h
  obtain ⟨member, members, rfl⟩ := List.exists_cons_of_ne_nil hne
  have hkinds : blockKinds true (.object (member :: members)) =
      .blockMappingStart :: pairKinds (member :: members) ++ [.blockEnd] := by
    rw [blockKinds, pairKinds]
  have hvalue : TakesBlock .standard (.object (member :: members)) :=
    takesBlock_of_isExact (.object h)
  have hlength : (blockKinds true (.object (member :: members))).length =
      (pairKinds (member :: members)).length + 2 := by
    rw [hkinds]
    simp
  refine exists_parse?_of_takes (·.Spells (.object (member :: members))) hscan
    fun o fuel ho hfuel => ?_
  rw [← hkinds] at ho
  exact hvalue ho (hlength ▸ hfuel) (by simp)

end MachineTuning.Yaml
