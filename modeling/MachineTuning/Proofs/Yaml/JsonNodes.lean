import MachineTuning.Proofs.Yaml.JsonTokens
import MachineTuning.Yaml.Document

namespace MachineTuning.Yaml

/-!
# JSON texts as YAML nodes

The tokens of a JSON text are read as a node that spells its value, with the texts as YAML reads
them.  A key that does not fit as one is followed by a colon that belongs to nothing, and then there
is no node.
-/

/-! ### Nodes that spell a value -/

/-- The node is a scalar with this text.  Without quotes it must not be taken for nothing. -/
def Node.IsText (node : Node) (s : String) : Prop :=
  ∃ mark style, node = .scalar { mark } style s ∧
    (style = .plain → s.isEmpty = false ∧ Scalar.isNull s = false)

/-- A scalar between double quotes is a text. -/
theorem Node.isText_doubleQuoted (mark : Mark) (s : String) :
    (Node.scalar { mark } .doubleQuoted s).IsText s :=
  ⟨mark, .doubleQuoted, rfl, nofun⟩

mutual
/-- The node spells the value.  Nothing in it has an anchor or a tag. -/
def Node.Spells (node : Node) : Json → Prop
  | .null => ∃ mark, node = .scalar { mark } .plain "null"
  | .boolean b => ∃ mark, node = .scalar { mark } .plain (if b then "true" else "false")
  | .number n => ∃ mark, node = .scalar { mark } .plain (String.ofList (Json.numberChars n))
  | .text s => node.IsText s
  | .array items => ∃ mark nodes, node = .sequence { mark } nodes ∧ SpellItems nodes items
  | .object members => ∃ mark nodes, node = .mapping { mark } nodes ∧ SpellMembers nodes members

/-- The nodes spell the items, one each. -/
def Node.SpellItems (nodes : List Node) : List Json → Prop
  | [] => nodes = []
  | item :: items =>
    ∃ first rest, nodes = first :: rest ∧ Spells first item ∧ SpellItems rest items

/-- The pairs of nodes spell the members, one each. -/
def Node.SpellMembers (nodes : List (Node × Node)) : List (String × Json) → Prop
  | [] => nodes = []
  | (key, value) :: members =>
    ∃ keyNode valueNode rest, nodes = (keyNode, valueNode) :: rest ∧ keyNode.IsText key ∧
      Spells valueNode value ∧ SpellMembers rest members
end

/-! ### Outlooks -/

namespace Outlook

/-- The kinds of the tokens that are left. -/
def kinds (o : Outlook) : List TokenKind :=
  o.tokens.map (·.kind)

variable {o : Outlook} {kind : TokenKind} {kinds : List TokenKind}

/-- The first token that is left has the first kind. -/
theorem kind_eq (h : o.kinds = kind :: kinds) : o.kind = kind := by
  obtain ⟨tokens, anchors⟩ := o
  cases tokens with
  | nil => cases h
  | cons token tokens => exact (List.cons.inj h).1

/-- Behind the first token the other kinds are left. -/
theorem kinds_drop (h : o.kinds = kind :: kinds) : o.drop.kinds = kinds := by
  obtain ⟨tokens, anchors⟩ := o
  cases tokens with
  | nil => cases h
  | cons token tokens => exact (List.cons.inj h).2

end Outlook

/-! ### Readers -/

/-- What a reader gives: if the keys fit, something and the tokens behind it, and else nothing. -/
structure Takes {α : Type} (r? : Option (α × Outlook)) (fits : Prop) (post : α → Prop)
    (rest : List TokenKind) : Prop where
  some : fits → ∃ a o, r? = .some (a, o) ∧ post a ∧ o.kinds = rest
  none : ¬fits → r? = .none

namespace Takes

variable {α β : Type} {r? : Option (α × Outlook)} {fits fits' : Prop} {post : α → Prop}
  {rest : List TokenKind}

/-- Something that was taken as it should be is taken. -/
theorem of_eq_some {a : α} {o : Outlook} (h : r? = .some (a, o)) (ha : post a)
    (ho : o.kinds = rest) : Takes r? True post rest :=
  ⟨fun _ => ⟨a, o, h, ha, ho⟩, fun hnot => absurd trivial hnot⟩

/-- The condition under which something is taken may be put otherwise. -/
theorem of_iff (h : Takes r? fits post rest) (hiff : fits ↔ fits') : Takes r? fits' post rest :=
  propext hiff ▸ h

/-- A reader and another one behind it. -/
theorem bind {next? : α × Outlook → Option (β × Outlook)} {post' : β → Prop}
    {rest' : List TokenKind} (h : Takes r? fits post rest)
    (h' : ∀ a o, post a → o.kinds = rest → Takes (next? (a, o)) fits' post' rest') :
    Takes (r?.bind next?) (fits ∧ fits') post' rest' where
  some := by
    rintro ⟨hfits, hfits'⟩
    obtain ⟨a, o, rfl, ha, ho⟩ := h.some hfits
    exact (h' a o ha ho).some hfits'
  none := by
    intro hnot
    by_cases hfits : fits
    · obtain ⟨a, o, rfl, ha, ho⟩ := h.some hfits
      exact (h' a o ha ho).none fun hfits' => hnot ⟨hfits, hfits'⟩
    · rw [h.none hfits]
      rfl

/-- A reader and another one behind it, where nothing can fail in the first. -/
theorem andThen {next? : α × Outlook → Option (β × Outlook)} {post' : β → Prop}
    {rest' : List TokenKind} (h : Takes r? True post rest)
    (h' : ∀ a o, post a → o.kinds = rest → Takes (next? (a, o)) fits' post' rest') :
    Takes (r?.bind next?) fits' post' rest' :=
  (h.bind h').of_iff (iff_of_eq (true_and fits'))

end Takes

namespace Node

variable {handles : TagHandles} {fuel : Nat} {block indentless : Bool} {o : Outlook}
  {kind : TokenKind} {kinds rest : List TokenKind}

/-- The kinds of the tokens that start what a JSON value becomes. -/
def startsValue : TokenKind → Bool
  | .scalar _ _ | .flowSequenceStart | .flowMappingStart => true
  | _ => false

/-- What starts a value is not what starts none. -/
theorem ne_of_startsValue (h : startsValue kind) (other : TokenKind)
    (hother : startsValue other = false) : kind ≠ other := by
  rintro rfl
  rw [hother] at h
  cases h

/-- Whether a token is an anchor or a tag. -/
def isProperty : TokenKind → Bool
  | .anchor _ | .tag _ _ => true
  | _ => false

/-- Without a tag or an anchor nothing is taken in front of a node. -/
theorem takeProperties?_of_not_isProperty (h : o.kinds = kind :: kinds)
    (hkind : isProperty kind = false) :
    takeProperties? handles o = some ({ mark := o.start }, o) := by
  rw [← o.kind_eq h] at hkind
  have hanchor : takeAnchor o = (none, o) := by
    unfold takeAnchor
    split
    · next name hanchor => simp [isProperty, hanchor] at hkind
    · rfl
  have htag : takeTag? handles o = some (none, o) := by
    unfold takeTag?
    split
    · next handle behind htag => simp [isProperty, htag] at hkind
    · rfl
  rw [takeProperties?, hanchor]
  simp [htag]

/-- In front of a value stands neither a tag nor an anchor. -/
theorem takeProperties?_eq (h : o.kinds = kind :: kinds) (hkind : startsValue kind) :
    takeProperties? handles o = some ({ mark := o.start }, o) := by
  apply takeProperties?_of_not_isProperty h
  match kind, hkind with
  | .scalar _ _, _ | .flowSequenceStart, _ | .flowMappingStart, _ => rfl

/-- A scalar is a node. -/
theorem take?_scalar {style : ScalarStyle} {text : List Char}
    (h : o.kinds = .scalar style text :: kinds) :
    take? handles (fuel + 1) block indentless o =
      some (.scalar { mark := o.start } style (String.ofList text), o.drop) := by
  have hkind := o.kind_eq h
  rw [take?]
  simp [hkind, takeProperties?_eq h rfl]

/-- A flow sequence is its items. -/
theorem take?_flowSequence (h : o.kinds = .flowSequenceStart :: kinds) :
    take? handles (fuel + 1) block indentless o =
      (takeFlowItems? handles fuel true o.drop).bind fun (items, o') =>
        some (.sequence { mark := o.start } items, o') := by
  have hkind := o.kind_eq h
  rw [take?]
  simp [hkind, takeProperties?_eq h rfl]

/-- A flow mapping is its members. -/
theorem take?_flowMapping (h : o.kinds = .flowMappingStart :: kinds) :
    take? handles (fuel + 1) block indentless o =
      (takeFlowMembers? handles fuel true o.drop).bind fun (members, o') =>
        some (.mapping { mark := o.start } members, o') := by
  have hkind := o.kind_eq h
  rw [take?]
  simp [hkind, takeProperties?_eq h rfl]

/-! ### Items and members -/

/-- A bracket ends the items. -/
theorem takeFlowItems?_end (h : o.kinds = .flowSequenceEnd :: kinds) (first : Bool) :
    takeFlowItems? handles (fuel + 1) first o = some ([], o.drop) := by
  rw [takeFlowItems?, o.kind_eq h]
  rfl

/-- A comma in front of a value leads to a further item. -/
theorem takeFlowItems?_flowEntry (h : o.kinds = .flowEntry :: kind :: kinds)
    (hkind : startsValue kind) :
    takeFlowItems? handles (fuel + 1) false o = takeFlowItems? handles (fuel + 1) true o.drop := by
  have hentry := o.kind_eq h
  have hbehind := o.drop.kind_eq (o.kinds_drop h)
  rw [takeFlowItems?, takeFlowItems?]
  simp [hentry, hbehind, ne_of_startsValue hkind .flowSequenceEnd rfl]

/-- An item and the items that follow it. -/
theorem takeFlowItems?_cons (h : o.kinds = kind :: kinds) (hkind : startsValue kind) :
    takeFlowItems? handles (fuel + 1) true o =
      (take? handles fuel false false o).bind fun r =>
        (takeFlowItems? handles fuel false r.2).bind fun r' => some (r.1 :: r'.1, r'.2) := by
  have hfirst := o.kind_eq h
  rw [takeFlowItems?]
  simp [hfirst, ne_of_startsValue hkind .flowSequenceEnd rfl, ne_of_startsValue hkind .key rfl]

/-- A brace ends the members. -/
theorem takeFlowMembers?_end (h : o.kinds = .flowMappingEnd :: kinds) (first : Bool) :
    takeFlowMembers? handles (fuel + 1) first o = some ([], o.drop) := by
  rw [takeFlowMembers?, o.kind_eq h]
  rfl

/-- A comma leads to a further member. -/
theorem takeFlowMembers?_flowEntry (h : o.kinds = .flowEntry :: kind :: kinds)
    (hkind : kind ≠ .flowMappingEnd) :
    takeFlowMembers? handles (fuel + 1) false o =
      takeFlowMembers? handles (fuel + 1) true o.drop := by
  have hentry := o.kind_eq h
  have hbehind := o.drop.kind_eq (o.kinds_drop h)
  rw [takeFlowMembers?, takeFlowMembers?]
  simp [hentry, hbehind, hkind]

/-- A member with its key. -/
theorem takeFlowMembers?_key {style : ScalarStyle} {text : List Char}
    (h : o.kinds = .key :: .scalar style text :: .value :: kind :: kinds)
    (hkind : startsValue kind) :
    takeFlowMembers? handles (fuel + 2) true o =
      (take? handles fuel false false o.drop.drop.drop).bind fun r =>
        (takeFlowMembers? handles (fuel + 1) false r.2).bind fun r' =>
          some ((.scalar { mark := o.drop.start } style (String.ofList text), r.1) :: r'.1,
            r'.2) := by
  have hscalar := o.kinds_drop h
  have hvalue := o.drop.kinds_drop hscalar
  have hkey := o.kind_eq h
  have hbehind := o.drop.drop.drop.kind_eq (o.drop.drop.kinds_drop hvalue)
  rw [takeFlowMembers?]
  simp [hkey, o.drop.kind_eq hscalar, take?_scalar hscalar, takeFlowValue?,
    o.drop.drop.kind_eq hvalue, hbehind, endsFlowPart, ne_of_startsValue hkind .flowEntry rfl,
    ne_of_startsValue hkind .flowMappingEnd rfl]

/-- Without its key a text stands for a member, and the colon behind it for nothing. -/
theorem takeFlowMembers?_value {style : ScalarStyle} {text : List Char}
    (h : o.kinds = .scalar style text :: .value :: kinds) :
    takeFlowMembers? handles fuel true o = none := by
  have hscalar := o.kind_eq h
  have hvalue := o.drop.kind_eq (o.kinds_drop h)
  match fuel with
  | 0 => rfl
  | 1 =>
    rw [takeFlowMembers?]
    simp [hscalar, take?]
  | fuel + 2 =>
    have hnone : takeFlowMembers? handles (fuel + 1) false o.drop = none := by
      rw [takeFlowMembers?]
      simp [hvalue]
    rw [takeFlowMembers?]
    simp [hscalar, take?_scalar h, hnone]

end Node

/-! ### Reading values -/

/-- What YAML reads where JSON has written a text.  Where it reads nothing, that is the text. -/
def readText (s : String) : String :=
  ((reread s.toList).map String.ofList).getD s

/-- A text that can be read is read as that. -/
theorem readText_eq {s : String} {read : List Char} (h : reread s.toList = some read) :
    readText s = String.ofList read := by
  rw [readText, h]
  rfl

/-- No printable character of ASCII is a line break. -/
theorem not_isBreak_of_ascii {c : Char} (hlower : 0x20 ≤ c.toNat) (hupper : c.toNat < 0x7F) :
    isBreak c = false := by
  have hne : ∀ d : Char, d.toNat < 0x20 ∨ 0x7F ≤ d.toNat → c ≠ d := by
    rintro d hd rfl
    omega
  simp [isBreak, hne]

/-- A key that fits is read as it is. -/
theorem reread_of_fitsKey {key : String} (h : Scanner.fitsKey key) :
    reread key.toList = some key.toList := by
  rw [Scanner.fitsKey, Bool.and_eq_true, List.all_eq_true] at h
  have hline : ∀ c ∈ Json.textChars key, isBreak c = false := fun c hc => by
    simpa using h.1 c hc
  refine reread_eq_some_self_iff.2 (isKept_of_forall fun c hc => ?_)
  have hbreak := (Json.forall_mem_textChars_iff (fun c => not_isBreak_of_ascii) key).1 hline c hc
  constructor
  · rintro rfl
    exact absurd hbreak (by decide)
  · rw [Bool.eq_false_iff]
    intro hseparator
    rcases isSeparator_iff.1 hseparator with rfl | rfl <;> exact absurd hbreak (by decide)

/-- Two runs of tokens are there exactly if both are, one behind the other. -/
theorem joined_eq_some_iff {kinds? kinds'? : Option (List TokenKind)} {kinds : List TokenKind} :
    joined kinds? kinds'? = some kinds ↔
      ∃ first behind, kinds? = some first ∧ kinds'? = some behind ∧ first ++ behind = kinds := by
  simp [joined, Option.bind_eq_some_iff, Option.map_eq_some_iff]

/-- A value's tokens start as one of three. -/
theorem exists_startsValue {v : Json} {kinds : List TokenKind} (h : tokenKinds? v = some kinds) :
    ∃ kind behind, kinds = kind :: behind ∧ Node.startsValue kind := by
  -- Behind a key the reader looks at one token only, to see whether a value is there at all.
  cases v with
  | null => exact ⟨_, _, (Option.some.inj h).symm, rfl⟩
  | boolean b => exact ⟨_, _, (Option.some.inj h).symm, rfl⟩
  | number n => exact ⟨_, _, (Option.some.inj h).symm, rfl⟩
  | text s =>
    obtain ⟨read, -, rfl⟩ := Option.map_eq_some_iff.1 h
    exact ⟨_, _, rfl, rfl⟩
  | array items =>
    cases items with
    | nil => exact ⟨_, _, (Option.some.inj h).symm, rfl⟩
    | cons item items =>
      obtain ⟨inside, -, rfl⟩ := Option.map_eq_some_iff.1 h
      exact ⟨_, _, rfl, rfl⟩
  | object members =>
    cases members with
    | nil => exact ⟨_, _, (Option.some.inj h).symm, rfl⟩
    | cons member members =>
      obtain ⟨inside, -, rfl⟩ := Option.map_eq_some_iff.1 h
      exact ⟨_, _, rfl, rfl⟩

section Values

open Json (itemKeys memberKeys mapItemTexts mapMemberTexts)
open Node (take? takeFlowItems? takeFlowMembers? SpellItems SpellMembers)
open Scanner (fitsKey)

variable {handles : TagHandles} {o : Outlook} {kinds rest : List TokenKind} {fuel : Nat}

/-- From the tokens of a value a node is taken that spells it, if its keys fit. -/
def TakesValue (handles : TagHandles) (v : Json) : Prop :=
  ∀ ⦃kinds⦄, tokenKinds? v = some kinds → ∀ ⦃o : Outlook⦄ ⦃rest⦄, o.kinds = kinds ++ rest →
    ∀ ⦃fuel⦄, kinds.length ≤ fuel → ∀ block indentless,
      Takes (take? handles fuel block indentless o) (∀ key ∈ v.keys, fitsKey key)
        (·.Spells (v.mapTexts readText)) rest

/-- An item and the items behind it. -/
theorem takes_item {item : Json} {items : List Json} {first behind : List TokenKind}
    (hitem : TakesValue handles item) (hkinds : tokenKinds? item = some first)
    (ho : o.kinds = first ++ behind) (hfuel : first.length ≤ fuel)
    (hitems : ∀ o : Outlook, o.kinds = behind →
      Takes (takeFlowItems? handles fuel false o) (∀ key ∈ itemKeys items, fitsKey key)
        (SpellItems · (mapItemTexts readText items)) rest) :
    Takes (takeFlowItems? handles (fuel + 1) true o) (∀ key ∈ itemKeys (item :: items), fitsKey key)
      (SpellItems · (mapItemTexts readText (item :: items))) rest := by
  obtain ⟨kind, tail, rfl, hstarts⟩ := exists_startsValue hkinds
  have hiff : (∀ key ∈ itemKeys (item :: items), fitsKey key) ↔
      (∀ key ∈ item.keys, fitsKey key) ∧ (∀ key ∈ itemKeys items, fitsKey key) ∧ True := by
    rw [and_true, itemKeys, List.forall_mem_append]
  rw [Node.takeFlowItems?_cons ho hstarts]
  refine ((hitem hkinds ho hfuel false false).bind fun node o hnode ho => ?_).of_iff hiff.symm
  refine (hitems o ho).bind fun nodes o hnodes ho => ?_
  exact .of_eq_some rfl ⟨node, nodes, rfl, hnode, hnodes⟩ ho

/-- Items that can be taken one by one are taken in a row. -/
theorem takes_items {items : List Json} (h : ∀ v ∈ items, TakesValue handles v)
    (hkinds : itemKinds? items = some kinds) (ho : o.kinds = kinds ++ .flowSequenceEnd :: rest)
    (hfuel : kinds.length < fuel) :
    Takes (takeFlowItems? handles fuel false o) (∀ key ∈ itemKeys items, fitsKey key)
      (SpellItems · (mapItemTexts readText items)) rest := by
  induction items generalizing kinds o fuel with
  | nil =>
    obtain ⟨fuel, rfl⟩ := Nat.exists_eq_succ_of_ne_zero (Nat.ne_of_gt (Nat.zero_lt_of_lt hfuel))
    obtain rfl := Option.some.inj hkinds
    exact ⟨fun _ => ⟨[], o.drop, Node.takeFlowItems?_end ho false, rfl, o.kinds_drop ho⟩,
      fun hnot => absurd (by simp [itemKeys]) hnot⟩
  | cons item items ih =>
    obtain ⟨hitem, hitems⟩ := List.forall_mem_cons.1 h
    -- A comma goes in front of every item but the first, so that the row begins with one.
    rw [itemKinds?, joined_eq_some_iff] at hkinds
    obtain ⟨_, behind, hcomma, hbehind, rfl⟩ := hkinds
    obtain ⟨first, hfirst, rfl⟩ := Option.map_eq_some_iff.1 hcomma
    obtain ⟨kind, tail, rfl, hstarts⟩ := exists_startsValue hfirst
    simp only [List.cons_append, List.append_assoc, List.length_cons, List.length_append]
      at ho hfuel
    obtain ⟨fuel, rfl⟩ := Nat.exists_eq_succ_of_ne_zero (Nat.ne_of_gt (Nat.zero_lt_of_lt hfuel))
    rw [Node.takeFlowItems?_flowEntry ho hstarts]
    refine takes_item hitem hfirst (o.kinds_drop ho) (by rw [List.length_cons]; omega)
      fun o ho => ?_
    exact ih hitems hbehind ho (by omega)

/-- A member and the members behind it. -/
theorem takes_member {key : String} {value : Json} {members : List (String × Json)}
    {read : List Char} {first behind : List TokenKind}
    (hvalue : TakesValue handles value) (hread : reread key.toList = some read)
    (hkinds : tokenKinds? value = some first)
    (ho : o.kinds = Scanner.keyKinds key read ++ first ++ behind) (hfuel : first.length ≤ fuel)
    (hmembers : ∀ o : Outlook, o.kinds = behind →
      Takes (takeFlowMembers? handles (fuel + 1) false o) (∀ key ∈ memberKeys members, fitsKey key)
        (SpellMembers · (mapMemberTexts readText members)) rest) :
    Takes (takeFlowMembers? handles (fuel + 2) true o)
      (∀ k ∈ memberKeys ((key, value) :: members), fitsKey k)
      (SpellMembers · (mapMemberTexts readText ((key, value) :: members))) rest := by
  have hiff : (∀ k ∈ memberKeys ((key, value) :: members), fitsKey k) ↔
      fitsKey key ∧ (∀ key ∈ value.keys, fitsKey key) ∧
        (∀ key ∈ memberKeys members, fitsKey key) ∧ True := by
    rw [and_true, memberKeys, List.forall_mem_append, List.forall_mem_cons, and_assoc]
  refine .of_iff ?_ hiff.symm
  -- A key that does not fit has lost its mark: the node reader meets a value where a key should
  -- stand and gives up.
  by_cases hfits : fitsKey key
  · obtain rfl : key.toList = read := Option.some.inj ((reread_of_fitsKey hfits).symm.trans hread)
    obtain ⟨kind, tail, rfl, hstarts⟩ := exists_startsValue hkinds
    rw [Scanner.keyKinds, if_pos hfits] at ho
    rw [Node.takeFlowMembers?_key ho hstarts]
    refine .of_iff ?_ (and_iff_right hfits).symm
    refine (hvalue hkinds (o.drop.drop.kinds_drop (o.drop.kinds_drop (o.kinds_drop ho))) hfuel
      false false).bind fun node o' hnode ho' => ?_
    refine (hmembers o' ho').bind fun nodes o'' hnodes ho'' => ?_
    rw [String.ofList_toList]
    exact .of_eq_some rfl ⟨_, node, nodes, rfl, Node.isText_doubleQuoted _ key, hnode, hnodes⟩ ho''
  · rw [Scanner.keyKinds, if_neg hfits] at ho
    exact ⟨fun h => absurd h.1 hfits, fun _ => Node.takeFlowMembers?_value ho⟩

/-- A key has tokens, and none of them ends the mapping. -/
theorem exists_keyKinds_eq_cons (key : String) (read : List Char) :
    ∃ kind behind, Scanner.keyKinds key read = kind :: behind ∧ kind ≠ .flowMappingEnd := by
  rw [Scanner.keyKinds]
  split <;> exact ⟨_, _, rfl, by simp⟩

/-- Members whose values can be taken one by one are taken in a row. -/
theorem takes_members {members : List (String × Json)} (h : ∀ m ∈ members, TakesValue handles m.2)
    (hkinds : memberKinds? members = some kinds) (ho : o.kinds = kinds ++ .flowMappingEnd :: rest)
    (hfuel : kinds.length < fuel) :
    Takes (takeFlowMembers? handles fuel false o) (∀ key ∈ memberKeys members, fitsKey key)
      (SpellMembers · (mapMemberTexts readText members)) rest := by
  induction members generalizing kinds o fuel with
  | nil =>
    obtain ⟨fuel, rfl⟩ := Nat.exists_eq_succ_of_ne_zero (Nat.ne_of_gt (Nat.zero_lt_of_lt hfuel))
    obtain rfl := Option.some.inj hkinds
    exact ⟨fun _ => ⟨[], o.drop, Node.takeFlowMembers?_end ho false, rfl, o.kinds_drop ho⟩,
      fun hnot => absurd (by simp [memberKeys]) hnot⟩
  | cons member members ih =>
    obtain ⟨hmember, hmembers⟩ := List.forall_mem_cons.1 h
    obtain ⟨key, value⟩ := member
    rw [memberKinds?, joined_eq_some_iff] at hkinds
    obtain ⟨_, behind, hcomma, hbehind, rfl⟩ := hkinds
    obtain ⟨_, hpair, rfl⟩ := Option.map_eq_some_iff.1 hcomma
    obtain ⟨_, first, hkey, hfirst, rfl⟩ := joined_eq_some_iff.1 hpair
    obtain ⟨read, hread, rfl⟩ := Option.map_eq_some_iff.1 hkey
    obtain ⟨kind, tail, hkeyKinds, hkind⟩ := exists_keyKinds_eq_cons key read
    simp only [List.cons_append, List.append_assoc, List.length_cons, List.length_append]
      at ho hfuel
    have hentry : o.kinds = .flowEntry :: kind ::
        (tail ++ (first ++ (behind ++ .flowMappingEnd :: rest))) := by
      rw [ho, hkeyKinds, List.cons_append]
    have hdrop := o.kinds_drop ho
    rw [← List.append_assoc] at hdrop
    -- A member takes two steps, one for its key and one for its value.
    obtain ⟨fuel, rfl⟩ : ∃ n, fuel = n + 2 := ⟨fuel - 2, by omega⟩
    rw [Node.takeFlowMembers?_flowEntry hentry hkind]
    refine takes_member hmember hread hfirst hdrop (by omega) fun o ho => ?_
    exact ih hmembers hbehind ho (by omega)

/-- A scalar is a node of its own. -/
theorem takesValue_scalar {v : Json} (hkeys : v.keys = [])
    (hkinds : ∀ kinds, tokenKinds? v = some kinds → ∃ style text, kinds = [.scalar style text] ∧
      ∀ mark, (Node.scalar { mark } style (String.ofList text)).Spells (v.mapTexts readText)) :
    TakesValue handles v := by
  intro kinds hv o rest ho fuel hfuel block indentless
  obtain ⟨style, text, rfl, hspells⟩ := hkinds kinds hv
  obtain ⟨fuel, rfl⟩ := Nat.exists_eq_succ_of_ne_zero (Nat.ne_of_gt hfuel)
  rw [hkeys]
  exact ⟨fun _ => ⟨_, o.drop, Node.take?_scalar ho, hspells o.start, o.kinds_drop ho⟩,
    fun hnot => absurd nofun hnot⟩

/-- The items of an array are what stands between its brackets. -/
theorem exists_sequenceKinds {items : List Json} (h : ∀ v ∈ items, TakesValue handles v)
    (hkinds : tokenKinds? (.array items) = some kinds) :
    ∃ inside, kinds = sequenceKinds inside ∧ ∀ {o : Outlook} {rest fuel},
      o.kinds = inside ++ .flowSequenceEnd :: rest → inside.length < fuel →
      Takes (takeFlowItems? handles fuel true o) (∀ key ∈ itemKeys items, fitsKey key)
        (SpellItems · (mapItemTexts readText items)) rest := by
  cases items with
  | nil =>
    refine ⟨[], (Option.some.inj hkinds).symm, fun {o rest fuel} ho hfuel => ?_⟩
    obtain ⟨fuel, rfl⟩ := Nat.exists_eq_succ_of_ne_zero (Nat.ne_of_gt hfuel)
    exact ⟨fun _ => ⟨[], o.drop, Node.takeFlowItems?_end ho true, rfl, o.kinds_drop ho⟩,
      fun hnot => absurd (by simp [itemKeys]) hnot⟩
  | cons item items =>
    obtain ⟨hitem, hitems⟩ := List.forall_mem_cons.1 h
    rw [tokenKinds?] at hkinds
    obtain ⟨inside, hinside, rfl⟩ := Option.map_eq_some_iff.1 hkinds
    obtain ⟨first, behind, hfirst, hbehind, rfl⟩ := joined_eq_some_iff.1 hinside
    refine ⟨first ++ behind, rfl, fun {o rest fuel} ho hfuel => ?_⟩
    -- The first item has a token at least, which pays for the step to the second.
    have hpos : 0 < first.length := by
      obtain ⟨kind, tail, rfl, -⟩ := exists_startsValue hfirst
      exact Nat.succ_pos _
    rw [List.length_append] at hfuel
    obtain ⟨fuel, rfl⟩ := Nat.exists_eq_succ_of_ne_zero (Nat.ne_of_gt (Nat.zero_lt_of_lt hfuel))
    rw [List.append_assoc] at ho
    exact takes_item hitem hfirst ho (by omega) fun o ho => takes_items hitems hbehind ho (by omega)

/-- An array is taken if its items are. -/
theorem takesValue_array {items : List Json} (h : ∀ v ∈ items, TakesValue handles v) :
    TakesValue handles (.array items) := by
  intro kinds hkinds o rest ho fuel hfuel block indentless
  obtain ⟨inside, rfl, hbody⟩ := exists_sequenceKinds h hkinds
  simp only [sequenceKinds, List.cons_append, List.append_assoc, List.length_cons,
    List.length_append] at ho hfuel
  obtain ⟨fuel, rfl⟩ := Nat.exists_eq_succ_of_ne_zero (Nat.ne_of_gt (Nat.zero_lt_of_lt hfuel))
  have hiff : (∀ key ∈ itemKeys items, fitsKey key) ∧ True ↔
      ∀ key ∈ (Json.array items).keys, fitsKey key := by
    rw [and_true, Json.keys]
  rw [Node.take?_flowSequence ho]
  refine ((hbody (o.kinds_drop ho) (by omega)).bind fun nodes o' hnodes ho' => ?_).of_iff hiff
  exact .of_eq_some rfl ⟨o.start, nodes, rfl, hnodes⟩ ho'

/-- The tokens of an object are those of its members between braces. -/
theorem exists_mappingKinds {members : List (String × Json)}
    (h : ∀ m ∈ members, TakesValue handles m.2)
    (hkinds : tokenKinds? (.object members) = some kinds) :
    ∃ inside, kinds = mappingKinds inside ∧ ∀ {o : Outlook} {rest fuel},
      o.kinds = inside ++ .flowMappingEnd :: rest → inside.length < fuel →
      Takes (takeFlowMembers? handles fuel true o) (∀ key ∈ memberKeys members, fitsKey key)
        (SpellMembers · (mapMemberTexts readText members)) rest := by
  cases members with
  | nil =>
    refine ⟨[], (Option.some.inj hkinds).symm, fun {o rest fuel} ho hfuel => ?_⟩
    obtain ⟨fuel, rfl⟩ := Nat.exists_eq_succ_of_ne_zero (Nat.ne_of_gt hfuel)
    exact ⟨fun _ => ⟨[], o.drop, Node.takeFlowMembers?_end ho true, rfl, o.kinds_drop ho⟩,
      fun hnot => absurd (by simp [memberKeys]) hnot⟩
  | cons member members =>
    obtain ⟨hmember, hmembers⟩ := List.forall_mem_cons.1 h
    obtain ⟨key, value⟩ := member
    rw [tokenKinds?] at hkinds
    obtain ⟨inside, hinside, rfl⟩ := Option.map_eq_some_iff.1 hkinds
    obtain ⟨_, behind, hpair, hbehind, rfl⟩ := joined_eq_some_iff.1 hinside
    obtain ⟨_, first, hkey, hfirst, rfl⟩ := joined_eq_some_iff.1 hpair
    obtain ⟨read, hread, rfl⟩ := Option.map_eq_some_iff.1 hkey
    refine ⟨_, rfl, fun {o rest fuel} ho hfuel => ?_⟩
    -- A key has two tokens at least, which pay for the two steps of its member.
    have hkey : 2 ≤ (Scanner.keyKinds key read).length := by
      rw [Scanner.keyKinds, List.length_append]
      exact Nat.le_add_left ..
    rw [List.length_append, List.length_append] at hfuel
    obtain ⟨fuel, rfl⟩ : ∃ n, fuel = n + 2 := ⟨fuel - 2, by omega⟩
    rw [List.append_assoc] at ho
    exact takes_member hmember hread hfirst ho (by omega)
      fun o ho => takes_members hmembers hbehind ho (by omega)

/-- An object is taken if the values of its members are. -/
theorem takesValue_object {members : List (String × Json)}
    (h : ∀ m ∈ members, TakesValue handles m.2) : TakesValue handles (.object members) := by
  intro kinds hkinds o rest ho fuel hfuel block indentless
  obtain ⟨inside, rfl, hbody⟩ := exists_mappingKinds h hkinds
  simp only [mappingKinds, List.cons_append, List.append_assoc, List.length_cons,
    List.length_append] at ho hfuel
  obtain ⟨fuel, rfl⟩ := Nat.exists_eq_succ_of_ne_zero (Nat.ne_of_gt (Nat.zero_lt_of_lt hfuel))
  have hiff : (∀ key ∈ memberKeys members, fitsKey key) ∧ True ↔
      ∀ key ∈ (Json.object members).keys, fitsKey key := by
    rw [and_true, Json.keys]
  rw [Node.take?_flowMapping ho]
  refine ((hbody (o.kinds_drop ho) (by omega)).bind fun nodes o' hnodes ho' => ?_).of_iff hiff
  exact .of_eq_some rfl ⟨o.start, nodes, rfl, hnodes⟩ ho'

/-- **A node for each value.** -/
theorem takesValue_of_isExact {v : Json} (h : v.IsExact) : TakesValue handles v := by
  -- Scalars are one token each; for the rest the induction gives every part.
  induction h with
  | null =>
    exact takesValue_scalar rfl fun _ hkinds =>
      ⟨_, _, (Option.some.inj hkinds).symm, fun mark => ⟨mark, rfl⟩⟩
  | boolean b =>
    refine takesValue_scalar rfl fun _ hkinds =>
      ⟨_, _, (Option.some.inj hkinds).symm, fun mark => ⟨mark, ?_⟩⟩
    rw [String.ofList_toList]
  | integer =>
    exact takesValue_scalar rfl fun _ hkinds =>
      ⟨_, _, (Option.some.inj hkinds).symm, fun mark => ⟨mark, rfl⟩⟩
  | text s =>
    refine takesValue_scalar rfl fun _ hkinds => ?_
    obtain ⟨read, hread, rfl⟩ := Option.map_eq_some_iff.1 hkinds
    refine ⟨_, _, rfl, fun mark => ?_⟩
    rw [Json.mapTexts, readText_eq hread]
    exact Node.isText_doubleQuoted mark _
  | array _ ih => exact takesValue_array ih
  | object _ ih => exact takesValue_object ih

end Values

/-! ### Documents -/

section Documents

open Json (texts keys itemTexts itemKeys memberTexts memberKeys)

/-- YAML reads some text where JSON has written this one. -/
def IsReadable (s : String) : Prop :=
  (reread s.toList).isSome

/-- Two runs of tokens are there exactly if each of them is. -/
theorem isSome_joined_iff {kinds? kinds'? : Option (List TokenKind)} :
    (joined kinds? kinds'?).isSome ↔ kinds?.isSome ∧ kinds'?.isSome := by
  cases kinds? <;> simp [joined]

/-- A key has tokens exactly if it can be read. -/
theorem isSome_keyKinds?_iff {key : String} : (keyKinds? key).isSome ↔ IsReadable key := by
  rw [keyKinds?, Option.isSome_map, IsReadable]

mutual
/-- A value falls into tokens if and only if its texts and keys can be read. -/
theorem isSome_tokenKinds?_iff : ∀ v : Json,
    (tokenKinds? v).isSome ↔ (∀ s ∈ v.texts, IsReadable s) ∧ ∀ s ∈ v.keys, IsReadable s
  | .null => by simp [tokenKinds?, texts, keys]
  | .boolean b => by simp [tokenKinds?, texts, keys]
  | .number n => by simp [tokenKinds?, texts, keys]
  | .text s => by simp [tokenKinds?, texts, keys, IsReadable]
  | .array [] => by simp [tokenKinds?, texts, keys, itemTexts, itemKeys]
  | .array (item :: items) => by
    rw [tokenKinds?, Option.isSome_map, isSome_joined_iff, isSome_tokenKinds?_iff item,
      isSome_itemKinds?_iff items, texts, keys, itemTexts, itemKeys, List.forall_mem_append,
      List.forall_mem_append]
    exact and_and_and_comm
  | .object [] => by simp [tokenKinds?, texts, keys, memberTexts, memberKeys]
  | .object ((key, value) :: members) => by
    rw [tokenKinds?, Option.isSome_map, isSome_joined_iff, isSome_joined_iff, isSome_keyKinds?_iff,
      isSome_tokenKinds?_iff value, isSome_memberKinds?_iff members, texts, keys, memberTexts,
      memberKeys, List.forall_mem_append, List.forall_mem_append, List.forall_mem_cons]
    tauto

/-- Items have tokens exactly if all texts and keys in them can be read. -/
theorem isSome_itemKinds?_iff : ∀ items : List Json,
    (itemKinds? items).isSome ↔
      (∀ s ∈ itemTexts items, IsReadable s) ∧ ∀ s ∈ itemKeys items, IsReadable s
  | [] => by simp [itemKinds?, itemTexts, itemKeys]
  | item :: items => by
    rw [itemKinds?, isSome_joined_iff, Option.isSome_map, isSome_tokenKinds?_iff item,
      isSome_itemKinds?_iff items, itemTexts, itemKeys, List.forall_mem_append,
      List.forall_mem_append]
    exact and_and_and_comm

/-- Members have tokens exactly if all texts and keys in them can be read. -/
theorem isSome_memberKinds?_iff : ∀ members : List (String × Json),
    (memberKinds? members).isSome ↔
      (∀ s ∈ memberTexts members, IsReadable s) ∧ ∀ s ∈ memberKeys members, IsReadable s
  | [] => by simp [memberKinds?, memberTexts, memberKeys]
  | (key, value) :: members => by
    rw [memberKinds?, isSome_joined_iff, Option.isSome_map, isSome_joined_iff, isSome_keyKinds?_iff,
      isSome_tokenKinds?_iff value, isSome_memberKinds?_iff members, memberTexts, memberKeys,
      List.forall_mem_append, List.forall_mem_append, List.forall_mem_cons]
    tauto
end

/-- Without directives or a marker, a document is what is taken from its tokens. -/
theorem takeDocument?_eq {tokens : List Token} {kind : TokenKind} {kinds : List TokenKind}
    (h : tokens.map (·.kind) = kind :: kinds) (hend : kind ≠ .streamEnd)
    (hexplicit : Node.startsExplicitly kind = false) :
    Node.takeDocument? tokens =
      Node.take? .standard (4 * tokens.length + 4) true false { tokens } := by
  have hkind : Outlook.kind { tokens } = kind := Outlook.kind_eq h
  rw [Node.takeDocument?]
  simp [hkind, hend, hexplicit]

/-- A value in front of the end of the stream is the root of a document. -/
theorem takes_takeDocument? {v : Json} (hv : TakesValue .standard v) {kinds rest : List TokenKind}
    (hkinds : tokenKinds? v = some kinds) {tokens : List Token}
    (htokens : tokens.map (·.kind) = kinds ++ rest) :
    Takes (Node.takeDocument? tokens) (∀ key ∈ v.keys, Scanner.fitsKey key)
      (·.Spells (v.mapTexts readText)) rest := by
  have ho : Outlook.kinds { tokens } = kinds ++ rest := htokens
  have hfuel : kinds.length ≤ 4 * tokens.length + 4 := by
    have hlength := congrArg List.length htokens
    rw [List.length_map, List.length_append] at hlength
    omega
  obtain ⟨kind, behind, hcons, hstarts⟩ := exists_startsValue hkinds
  have hexplicit : Node.startsExplicitly kind = false := by
    match kind, hstarts with
    | .scalar _ _, _ | .flowSequenceStart, _ | .flowMappingStart, _ => rfl
  rw [hcons, List.cons_append] at htokens
  rw [takeDocument?_eq htokens (Node.ne_of_startsValue hstarts .streamEnd rfl) hexplicit]
  exact hv hkinds ho hfuel true false

/-- A document whose tokens end behind its node is that node. -/
theorem ofTokens?_eq_some {tokens : List Token} {node : Node} {o : Outlook}
    (h : Node.takeDocument? tokens = some (node, o)) (ho : o.kinds = [.streamEnd]) :
    Node.ofTokens? tokens = some node := by
  obtain ⟨behind, anchors⟩ := o
  obtain ⟨⟨kind, start, stop⟩, rfl, hkind⟩ := List.map_eq_singleton_iff.1 ho
  obtain rfl : kind = .streamEnd := hkind
  simp [Node.ofTokens?, h]

/-- What a YAML document may hold of a JSON value's text: its characters must be permitted, its
    texts readable, and its keys must fit. -/
structure IsDocument (v : Json) : Prop where
  permitted : ∀ c ∈ Json.print .compact 0 v, isPermitted c
  texts : ∀ s ∈ v.texts, IsReadable s
  keys : ∀ key ∈ v.keys, Scanner.fitsKey key

section Objects

variable {members : List (String × Json)} (h : ∀ m ∈ members, m.2.IsExact)
include h

/-- **A JSON object as a YAML document.**  If its text may stand there, it holds a document whose
    root spells the object, with its texts as YAML reads them. -/
theorem parse?_compact_of_isDocument (hdocument : IsDocument (.object members)) :
    ∃ document, Document.parse? (Json.object members).compact = some document ∧
      document.root.Spells ((Json.object members).mapTexts readText) := by
  have hreadable : (tokenKinds? (.object members)).isSome := by
    refine (isSome_tokenKinds?_iff _).2 ⟨hdocument.texts, fun key hkey => ?_⟩
    rw [IsReadable, reread_of_fitsKey (hdocument.keys key hkey)]
    rfl
  obtain ⟨kinds, hkinds⟩ := Option.isSome_iff_exists.1 hreadable
  have htokens := ofChars?_print_object h
  rw [if_pos (List.all_eq_true.2 hdocument.permitted), hkinds, Option.map_some,
    Option.map_eq_some_iff] at htokens
  obtain ⟨tokens, hscan, htokens⟩ := htokens
  have hvalue : TakesValue .standard (.object members) := takesValue_of_isExact (.object h)
  obtain ⟨node, o, htake, hspells, ho⟩ :=
    (takes_takeDocument? hvalue hkinds htokens).some hdocument.keys
  refine ⟨⟨node, node.anchored⟩, ?_, hspells⟩
  simp [Document.parse?, Json.compact, hscan, ofTokens?_eq_some htake ho]

/-- Otherwise it holds no document. -/
theorem parse?_compact_of_not_isDocument (hdocument : ¬IsDocument (.object members)) :
    Document.parse? (Json.object members).compact = none := by
  have htokens := ofChars?_print_object h
  cases hscan : Token.ofChars? (Json.print .compact 0 (.object members)) with
  | none => simp [Document.parse?, Json.compact, hscan]
  | some tokens =>
    rw [hscan, Option.map_some] at htokens
    split_ifs at htokens with hpermitted
    obtain ⟨kinds, hkinds, htokens⟩ := Option.map_eq_some_iff.1 htokens.symm
    have hreadable := (isSome_tokenKinds?_iff (.object members)).1 (by rw [hkinds]; rfl)
    have hkeys : ¬∀ key ∈ (Json.object members).keys, Scanner.fitsKey key := fun hkeys =>
      hdocument ⟨List.all_eq_true.1 hpermitted, hreadable.1, hkeys⟩
    have hvalue : TakesValue .standard (.object members) := takesValue_of_isExact (.object h)
    have htake := (takes_takeDocument? hvalue hkinds htokens.symm).none hkeys
    simp [Document.parse?, Json.compact, hscan, Node.ofTokens?, htake]

end Objects

end Documents

end MachineTuning.Yaml
