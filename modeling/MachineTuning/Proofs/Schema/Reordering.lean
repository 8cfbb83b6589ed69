import Mathlib.Data.List.Perm.Basic
import Mathlib.Data.List.ReduceOption
import MachineTuning.Proofs.Outcome
import MachineTuning.Schema.OfYaml

namespace MachineTuning

/-!
# Schemas — the order of members does not matter

Whoever edits a document may put the members of a mapping into another order.  A reader visits them
in the order in which they stand, but what it reads is put together by their keys.

* `Node.Reordered` — a tree with the members of its mappings in another order, at any depth;
* `Node.IsSimple` — what must hold of a tree so that the order says nothing: no aliases, and no key
  twice in a mapping;
* `Schema.ignoresOrder` — by every schema the same value is read from both trees.
-/

namespace Yaml

/-! ### Trees in another order -/

mutual
/-- One tree is another with the members of its mappings in another order, at any depth.  The items
    of a sequence stay in their order.  Everything stands at other places then, so places do not
    count, and neither do anchors. -/
inductive Node.Reordered : Node → Node → Prop
  | scalar {props props' : Properties} {style : ScalarStyle} {s : String} :
      props'.tag = props.tag → Node.Reordered (.scalar props style s) (.scalar props' style s)
  | sequence {props props' : Properties} {items items' : List Node} :
      props'.tag = props.tag → Node.ItemsReordered items items' →
      Node.Reordered (.sequence props items) (.sequence props' items')
  | mapping {props props' : Properties} {members inPlace members' : List (Node × Node)} :
      props'.tag = props.tag → Node.MembersReordered members inPlace → inPlace.Perm members' →
      Node.Reordered (.mapping props members) (.mapping props' members')
  | standIn {mark mark' : Mark} {anchor : Nat} :
      Node.Reordered (.alias mark anchor) (.alias mark' anchor)

/-- Items are reordered one by one, each in its place. -/
inductive Node.ItemsReordered : List Node → List Node → Prop
  | nil : Node.ItemsReordered [] []
  | cons {item item' : Node} {items items' : List Node} :
      item.Reordered item' → Node.ItemsReordered items items' →
      Node.ItemsReordered (item :: items) (item' :: items')

/-- Keys and values are reordered one by one, each in its place. -/
inductive Node.MembersReordered : List (Node × Node) → List (Node × Node) → Prop
  | nil : Node.MembersReordered [] []
  | cons {key key' value value' : Node} {members members' : List (Node × Node)} :
      key.Reordered key' → value.Reordered value' → Node.MembersReordered members members' →
      Node.MembersReordered ((key, value) :: members) ((key', value') :: members')
end

namespace Node

/-- The text of a scalar. -/
def text? : Node → Option String
  | .scalar _ _ s => some s
  | _ => none

/-- The keys of a mapping, as far as they are texts. -/
def keyTexts (members : List (Node × Node)) : List String :=
  members.filterMap fun m => m.1.text?

mutual
/-- Nothing in a tree is an alias, and no mapping in it has a key twice.  Keys are the same if their
    texts are, however these are written. -/
def IsSimple : Node → Prop
  | .scalar _ _ _ => True
  | .sequence _ items => AreSimpleItems items
  | .mapping _ members => (keyTexts members).Nodup ∧ AreSimpleMembers members
  | .alias _ _ => False

/-- All items are simple. -/
def AreSimpleItems : List Node → Prop
  | [] => True
  | item :: items => item.IsSimple ∧ AreSimpleItems items

/-- All keys and values are simple. -/
def AreSimpleMembers : List (Node × Node) → Prop
  | [] => True
  | (key, value) :: members => key.IsSimple ∧ value.IsSimple ∧ AreSimpleMembers members
end

variable {node node' : Node} {members members' : List (Node × Node)}

/-- A scalar stands for a sequence only where nothing is written. -/
theorem eq_of_items?_scalar {props : Properties} {style : ScalarStyle} {s : String}
    {items : List Node} (h : (Node.scalar props style s).items? = some items) :
    style = .plain ∧ s = "" ∧ items = [] := by
  unfold items? at h
  split at h <;> simp_all

/-- A scalar stands for a mapping only where nothing is written. -/
theorem eq_of_members?_scalar {props : Properties} {style : ScalarStyle} {s : String}
    (h : (Node.scalar props style s).members? = some members) :
    style = .plain ∧ s = "" ∧ members = [] := by
  unfold members? at h
  split at h <;> simp_all

/-- The text of a scalar does not change with the order. -/
theorem Reordered.text?_eq (h : node.Reordered node') : node'.text? = node.text? := by
  cases h <;> rfl

variable {β : Type} {R S : Node × Node → β → Prop}

/-- What holds of members one by one holds of them in another order inside. -/
theorem MembersReordered.forall₂
    (hstep : ∀ {key value key' value' b}, key.Reordered key' → value.Reordered value' →
      value.IsSimple → R (key, value) b → S (key', value') b) :
    ∀ {members members' : List (Node × Node)} {bs : List β}, MembersReordered members members' →
      AreSimpleMembers members → List.Forall₂ R members bs → List.Forall₂ S members' bs
  | _, _, _, .nil, _, .nil => .nil
  | _, _, _, .cons hkey hvalue h, ⟨_, hsimple, hrest⟩, .cons hb hbs =>
    .cons (hstep hkey hvalue hsimple hb) (h.forall₂ hstep hrest hbs)

/-- What the members of a mapping stand for, one by one, comes into another order with them. -/
theorem MembersReordered.exists_forall₂_perm {inPlace : List (Node × Node)} {bs : List β}
    (h : MembersReordered members inPlace) (hperm : inPlace.Perm members')
    (hsimple : AreSimpleMembers members)
    (hstep : ∀ {key value key' value' b}, key.Reordered key' → value.Reordered value' →
      value.IsSimple → R (key, value) b → S (key', value') b)
    (hbs : List.Forall₂ R members bs) : ∃ bs', List.Forall₂ S members' bs' ∧ bs'.Perm bs :=
  List.perm_comp_forall₂ hperm.symm (h.forall₂ hstep hsimple hbs)

end Node

end Yaml

open Yaml

/-! ### Values -/

namespace Schema

variable {α : Type}

/-- A value is read from a tree in whatever order its members are. -/
def IgnoresOrder (schema : Schema α) : Prop :=
  ∀ {node node' : Node}, node.Reordered node' → node.IsSimple →
    ∀ {anchors path a}, schema.ofNode anchors path node = .ok a →
      ∀ anchors' path', schema.ofNode anchors' path' node' = .ok a

/-- Schemas that take nothing but scalars need only take the same from scalars with the same tag. -/
theorem ignoresOrder_of_scalar {schema : Schema α}
    (hscalar : ∀ props props' style s, props'.tag = props.tag → ∀ {anchors path a},
      schema.ofNode anchors path (.scalar props style s) = .ok a →
        ∀ anchors' path', schema.ofNode anchors' path' (.scalar props' style s) = .ok a)
    (hsequence : ∀ anchors path props items, ∃ fault,
      schema.ofNode anchors path (.sequence props items) = .error fault)
    (hmapping : ∀ anchors path props members, ∃ fault,
      schema.ofNode anchors path (.mapping props members) = .error fault) :
    schema.IgnoresOrder := by
  intro node node' h hsimple anchors path a hread anchors' path'
  -- Reordering keeps the kind of a node, so that only scalars are left to look at.
  cases h with
  | scalar htag => exact hscalar _ _ _ _ htag hread anchors' path'
  | sequence =>
    obtain ⟨fault, hfault⟩ := hsequence anchors path _ _
    rw [hfault] at hread
    cases hread
  | mapping =>
    obtain ⟨fault, hfault⟩ := hmapping anchors path _ _
    rw [hfault] at hread
    cases hread
  | standIn => exact hsimple.elim

/-- Reading a text does not depend on the order of anything. -/
theorem ignoresOrder_text : text.IgnoresOrder := by
  refine ignoresOrder_of_scalar ?_ (fun _ _ _ _ => ⟨_, rfl⟩) (fun _ _ _ _ => ⟨_, rfl⟩)
  intro props props' style s htag anchors path a hread anchors' path'
  exact hread

/-- How a scalar may be taken depends on its tag, not on its place. -/
theorem isOpen_congr {props props' : Properties} (htag : props'.tag = props.tag)
    (style : ScalarStyle) (typeName : String) :
    Scalar.isOpen props' style typeName = Scalar.isOpen props style typeName := by
  rw [Scalar.isOpen, Scalar.isOpen, htag]

/-- Whether nothing is written depends on the tag, not on the place. -/
theorem isAbsent_congr {props props' : Properties} (htag : props'.tag = props.tag)
    (style : ScalarStyle) (s : String) :
    Scalar.isAbsent props' style s = Scalar.isAbsent props style s := by
  rw [Scalar.isAbsent, Scalar.isAbsent, htag]

/-- Reading a truth value does not depend on the order of anything. -/
theorem ignoresOrder_flag : flag.IgnoresOrder := by
  refine ignoresOrder_of_scalar ?_ (fun _ _ _ _ => ⟨_, rfl⟩) (fun _ _ _ _ => ⟨_, rfl⟩)
  intro props props' style s htag anchors path b hread anchors' path'
  simp only [ofNode, Node.target, isOpen_congr htag] at hread ⊢
  split at hread
  · exact hread
  · cases hread

/-- Reading a signed word does not depend on the order of anything. -/
theorem ignoresOrder_int32 : int32.IgnoresOrder := by
  refine ignoresOrder_of_scalar ?_ (fun _ _ _ _ => ⟨_, rfl⟩) (fun _ _ _ _ => ⟨_, rfl⟩)
  intro props props' style s htag anchors path n hread anchors' path'
  simp only [ofNode, Node.target, isOpen_congr htag] at hread ⊢
  split at hread
  · split at hread
    · exact hread
    · cases hread
  · cases hread

/-- Reading an unsigned word does not depend on the order of anything. -/
theorem ignoresOrder_uint32 : uint32.IgnoresOrder := by
  -- Without a name of its own the bound of the word is computed digit by digit.
  obtain ⟨narrow, hnarrow⟩ : ∃ narrow, uint32OfInt? = narrow := ⟨_, rfl⟩
  refine ignoresOrder_of_scalar ?_ (fun _ _ _ _ => ⟨_, rfl⟩) (fun _ _ _ _ => ⟨_, rfl⟩)
  intro props props' style s htag anchors path n hread anchors' path'
  rw [ofNode, hnarrow] at hread ⊢
  simp only [Node.target, isOpen_congr htag] at hread ⊢
  split at hread
  · split at hread
    · exact hread
    · cases hread
  · cases hread

/-- Reading a choice does not depend on the order of anything. -/
theorem ignoresOrder_choice {options : List (String × α)} {name : α → String} :
    (choice options name).IgnoresOrder := by
  refine ignoresOrder_of_scalar ?_ (fun _ _ _ _ => ⟨_, rfl⟩) (fun _ _ _ _ => ⟨_, rfl⟩)
  intro props props' style s htag anchors path a hread anchors' path'
  have hname : choiceName props' s = choiceName props s := by rw [choiceName, choiceName, htag]
  simp only [ofNode, Node.target, placed, Outcome.mapError_eq_ok_iff, hname] at hread ⊢
  exact hread

/-- A part that may be missing ignores the order if the part itself does. -/
theorem ignoresOrder_optional {inner : Schema α} (hinner : inner.IgnoresOrder) :
    (optional inner).IgnoresOrder := by
  intro node node' h hsimple anchors path a? hread anchors' path'
  have hpart {a?} (hread : (inner.ofNode anchors path node).map some = .ok a?) :
      (inner.ofNode anchors' path' node').map some = .ok a? := by
    obtain ⟨a, ha, rfl⟩ := Outcome.map_eq_ok_iff.1 hread
    exact Outcome.map_eq_ok_iff.2 ⟨a, hinner h hsimple ha anchors' path', rfl⟩
  cases h with
  | @scalar props props' style s htag =>
    simp only [ofNode, Node.target, isAbsent_congr htag] at hread ⊢
    split at hread
    · cases hread
    · exact hread
    · exact hpart hread
  | sequence | mapping => exact hpart hread
  | standIn => exact hsimple.elim

/-! ### Lists and labels -/

/-- Items that ignore the order inside them are read as before. -/
theorem readItems_eq_ok_of_reordered {item : Schema α} (hitem : item.IgnoresOrder) :
    ∀ {items items' : List Node}, Node.ItemsReordered items items' → Node.AreSimpleItems items →
      ∀ {anchors path index as},
        readItems path (fun path node => item.ofNode anchors path node) index items = .ok as →
        ∀ anchors' path' index',
          readItems path' (fun path node => item.ofNode anchors' path node) index' items' = .ok as
  | _, _, .nil, _, _, _, _, _, hread, _, _, _ => hread
  | _, _, .cons h hrest, hsimple, anchors, path, index, as, hread, anchors', path', index' => by
    obtain ⟨hfirst, hsimple⟩ := hsimple
    obtain ⟨a, ha, hread⟩ := Outcome.bind_eq_ok_iff.1 hread
    obtain ⟨as, has, heq⟩ := Outcome.bind_eq_ok_iff.1 hread
    refine Outcome.bind_eq_ok_iff.2 ⟨a, hitem h hfirst ha anchors' _, ?_⟩
    refine Outcome.bind_eq_ok_iff.2 ⟨as, ?_, heq⟩
    exact readItems_eq_ok_of_reordered hitem hrest hsimple has anchors' path' _

/-- Where nothing is written, a list has no items. -/
theorem ignoresOrder_list {item : Schema α} (hitem : item.IgnoresOrder) :
    (list item).IgnoresOrder := by
  intro node node' h hsimple anchors path as hread anchors' path'
  cases h with
  | @scalar props props' style s htag =>
    simp only [ofNode, Node.target] at hread ⊢
    split at hread
    · next items hitems =>
      obtain ⟨rfl, rfl, rfl⟩ := Node.eq_of_items?_scalar hitems
      exact hread
    · cases hread
  | @sequence props props' items items' htag hitems =>
    simp only [ofNode, Node.target, Node.items?, Outcome.mapError_eq_ok_iff] at hread ⊢
    exact readItems_eq_ok_of_reordered hitem hitems hsimple hread anchors' path' 0
  | mapping => cases hread
  | standIn => exact hsimple.elim

/-- A key that is a text is read as this text. -/
theorem readKey_of_text? {key : Node} {s : String} (h : key.text? = some s)
    (anchors : List (Nat × Node)) (path : Path) (expected : String) :
    readKey anchors path expected key = .ok (s, .member path s) := by
  cases key with
  | scalar props style s' =>
    obtain rfl := Option.some.inj h
    rfl
  | _ => cases h

/-- In a simple tree no other key is read. -/
theorem exists_text?_of_readKey {key : Node} (hkey : key.IsSimple) {anchors : List (Nat × Node)}
    {path : Path} {expected : String} {r : String × Path}
    (h : readKey anchors path expected key = .ok r) :
    ∃ s, key.text? = some s ∧ r = (s, .member path s) := by
  match key with
  | .scalar _ _ s => exact ⟨s, rfl, (Except.ok.inj h).symm⟩
  | .sequence _ _ | .mapping _ _ => cases h
  | .alias _ _ => exact hkey.elim

/-- A key and a value are the texts of a label. -/
def IsLabel (m : Node × Node) (e : String × String) : Prop :=
  m.1.text? = some e.1 ∧ m.2.text? = some e.2

/-- Members that are labels are read as these. -/
theorem readLabels_of_forall₂ {members : List (Node × Node)} {entries : List (String × String)}
    (h : List.Forall₂ IsLabel members entries) (anchors : List (Nat × Node)) (path : Path) :
    readLabels anchors path members = .ok entries := by
  induction h with
  | nil => rfl
  | @cons m e members entries hm _ ih =>
    obtain ⟨key, value⟩ := m
    obtain ⟨name, s⟩ := e
    obtain ⟨hname, htext⟩ : key.text? = some name ∧ value.text? = some s := hm
    cases value with
    | scalar props style s' =>
      obtain rfl := Option.some.inj htext
      simp only [readLabels, readKey_of_text? hname, Node.target, ih, bind, Except.bind]
      rfl
    | _ => cases htext

/-- In a simple tree nothing else is read as labels. -/
theorem forall₂_of_readLabels {anchors : List (Nat × Node)} {path : Path}
    {members : List (Node × Node)} (hsimple : Node.AreSimpleMembers members)
    {entries : List (String × String)} (h : readLabels anchors path members = .ok entries) :
    List.Forall₂ IsLabel members entries := by
  induction members generalizing entries with
  | nil =>
    obtain rfl := Except.ok.inj h
    exact .nil
  | cons m members ih =>
    obtain ⟨key, value⟩ := m
    obtain ⟨hkey, hvalue, hsimple⟩ := hsimple
    obtain ⟨_, hreadKey, hread⟩ := Outcome.bind_eq_ok_iff.1 h
    obtain ⟨name, hname, rfl⟩ := exists_text?_of_readKey hkey hreadKey
    -- In a simple tree a value is no alias, and lists and mappings are no text.
    match value with
    | .scalar _ _ s =>
      obtain ⟨rest, hrest, heq⟩ := Outcome.bind_eq_ok_iff.1 hread
      obtain rfl := Except.ok.inj heq
      exact .cons ⟨hname, rfl⟩ (ih hsimple hrest)
    | .sequence _ _ | .mapping _ _ => cases hread
    | .alias _ _ => exact hvalue.elim

/-- The keys of a mapping of labels are the keys of the labels. -/
theorem keyTexts_eq_of_forall₂ {members : List (Node × Node)} {entries : List (String × String)}
    (h : List.Forall₂ IsLabel members entries) :
    Node.keyTexts members = entries.map (·.1) := by
  induction h with
  | nil => rfl
  | cons hm _ ih => rw [Node.keyTexts, List.filterMap_cons, hm.1, List.map_cons, ← ih]; rfl

/-- Labels are read as before if no key stands there twice. -/
theorem ignoresOrder_labels : labels.IgnoresOrder := by
  intro node node' h hsimple anchors path m hread anchors' path'
  cases h with
  | @scalar props props' style s htag =>
    simp only [ofNode, Node.target] at hread ⊢
    split at hread
    · next members hmembers =>
      obtain ⟨rfl, rfl, rfl⟩ := Node.eq_of_members?_scalar hmembers
      exact hread
    · cases hread
  | sequence => cases hread
  | @mapping props props' members inPlace members' htag hmembers hperm =>
    obtain ⟨hkeys, hsimple⟩ := hsimple
    obtain ⟨entries, hentries, heq⟩ := Outcome.bind_eq_ok_iff.1 hread
    have hlabels := forall₂_of_readLabels hsimple hentries
    obtain ⟨entries', hlabels', hperm'⟩ := hmembers.exists_forall₂_perm (S := IsLabel) hperm hsimple
      (fun hkey hvalue _ h => ⟨hkey.text?_eq.trans h.1, hvalue.text?_eq.trans h.2⟩) hlabels
    refine Outcome.bind_eq_ok_iff.2 ⟨entries', readLabels_of_forall₂ hlabels' anchors' path', ?_⟩
    -- Of labels with different keys the map does not show in which order they came.
    rw [keyTexts_eq_of_forall₂ hlabels] at hkeys
    rw [← heq, KeyMap.ofList_eq_of_perm hperm'.symm hkeys]
  | standIn => exact hsimple.elim

end Schema

/-! ### Records -/

namespace Fields

variable {α : Type}

/-- Every member is read in whatever order its own members are. -/
def EachIgnoresOrder {α : Type} : Fields α → Prop
  | .nil => True
  | .cons _ _ schema _ _ rest => schema.IgnoresOrder ∧ rest.EachIgnoresOrder

/-- What visiting a member gives: a change to the record under its key, or nothing if there is no
    such field. -/
inductive Visits (fields : Fields α) (anchors : List (Nat × Node)) (path : Path) :
    Node × Node → Option (String × (α → α)) → Prop
  | declared {key value : Node} {name : String} {update : α → α} : key.text? = some name →
      fields.ofNodeMember? anchors name (.member path name) value = some (.ok update) →
      Visits fields anchors path (key, value) (some (name, update))
  | other {key value : Node} {name : String} : key.text? = some name →
      fields.ofNodeMember? anchors name (.member path name) value = none →
      Visits fields anchors path (key, value) none

/-- A field is read as before from a value in another order, and what is no field stays none. -/
theorem ofNodeMember?_of_reordered {fields : Fields α} (h : fields.EachIgnoresOrder)
    {value value' : Node} (hvalue : value.Reordered value') (hsimple : value.IsSimple)
    {anchors anchors' : List (Nat × Node)} {path path' : Path} {name : String} :
    (fields.ofNodeMember? anchors name path value = none →
      fields.ofNodeMember? anchors' name path' value' = none) ∧
    ∀ update, fields.ofNodeMember? anchors name path value = some (.ok update) →
      fields.ofNodeMember? anchors' name path' value' = some (.ok update) := by
  fun_induction keys fields with
  | case1 => exact ⟨fun _ => rfl, nofun⟩
  | case2 α β key required schema get set rest ih =>
    obtain ⟨hschema, hrest⟩ := h
    rw [ofNodeMember?, ofNodeMember?]
    -- Both look-ups take the same field, since they go by the name alone.
    by_cases hname : name = key
    · rw [if_pos hname, if_pos hname]
      refine ⟨nofun, fun update hread => ?_⟩
      obtain ⟨b, hb, rfl⟩ := Outcome.map_eq_ok_iff.1 (Option.some.inj hread)
      rw [hschema hvalue hsimple hb anchors' path']
      rfl
    · rw [if_neg hname, if_neg hname]
      exact ih hrest

/-- A member is visited as before if its key and its value were only reordered inside. -/
theorem Visits.of_reordered {fields : Fields α} (h : fields.EachIgnoresOrder)
    {anchors : List (Nat × Node)} {path : Path} {key value key' value' : Node}
    {update? : Option (String × (α → α))}
    (hvisits : fields.Visits anchors path (key, value) update?)
    (hkey : key.Reordered key') (hvalue : value.Reordered value') (hsimple : value.IsSimple)
    (anchors' : List (Nat × Node)) (path' : Path) :
    fields.Visits anchors' path' (key', value') update? := by
  cases hvisits with
  | declared hname hread =>
    exact .declared (hkey.text?_eq.trans hname)
      ((ofNodeMember?_of_reordered h hvalue hsimple).2 _ hread)
  | other hname hread =>
    exact .other (hkey.text?_eq.trans hname) ((ofNodeMember?_of_reordered h hvalue hsimple).1 hread)

/-- What is read of a record's members, where these fields were seen before. -/
def readUpdates (fields : Fields α) (anchors : List (Nat × Node)) (path : Path)
    (seen : List String) (members : List (Node × Node)) :
    Except Fault (List (String × (α → α))) :=
  readMembers anchors path (fun key path value => fields.ofNodeMember? anchors key path value)
    seen members

/-- What is read of a record's members is what visiting them gives, where no field comes twice and
    none was seen before. -/
structure ReadAs (fields : Fields α) (anchors : List (Nat × Node)) (path : Path)
    (seen : List String) (members : List (Node × Node)) (updates : List (String × (α → α))) :
    Prop where
  steps : ∃ steps, List.Forall₂ (fields.Visits anchors path) members steps ∧
    steps.reduceOption = updates
  nodup : (updates.map (·.1)).Nodup
  unseen : ∀ update ∈ updates, update.1 ∉ seen

variable {fields : Fields α} {anchors : List (Nat × Node)} {path : Path}

/-- A member that is not declared is passed over. -/
theorem readUpdates_other {key value : Node} {name : String} (hname : key.text? = some name)
    (h : fields.ofNodeMember? anchors name (.member path name) value = none) (seen : List String)
    (members : List (Node × Node)) :
    fields.readUpdates anchors path seen ((key, value) :: members) =
      fields.readUpdates anchors path seen members := by
  rw [readUpdates, readMembers, Schema.readKey_of_text? hname]
  simp only [bind, Except.bind, h]
  rfl

/-- A declared member must be new and read. -/
theorem readUpdates_declared {key value : Node} {name : String} (hname : key.text? = some name)
    {outcome : Except Fault (α → α)}
    (h : fields.ofNodeMember? anchors name (.member path name) value = some outcome)
    (seen : List String) (members : List (Node × Node)) :
    fields.readUpdates anchors path seen ((key, value) :: members) =
      if name ∈ seen then .error ⟨.duplicateField name, none⟩
      else do
        let update ← outcome
        return (name, update) :: (← fields.readUpdates anchors path (name :: seen) members) := by
  rw [readUpdates, readMembers, Schema.readKey_of_text? hname]
  simp only [bind, Except.bind, h]
  rfl

/-- Members of a simple mapping are read so only. -/
theorem ReadAs.of_readUpdates {members : List (Node × Node)}
    (hsimple : Node.AreSimpleMembers members) {seen : List String}
    {updates : List (String × (α → α))}
    (h : fields.readUpdates anchors path seen members = .ok updates) :
    fields.ReadAs anchors path seen members updates := by
  induction members generalizing seen updates with
  | nil =>
    obtain rfl := Except.ok.inj h
    exact ⟨⟨[], .nil, rfl⟩, .nil, nofun⟩
  | cons m members ih =>
    obtain ⟨key, value⟩ := m
    obtain ⟨hkey, -, hsimple⟩ := hsimple
    obtain ⟨_, hreadKey, -⟩ := Outcome.bind_eq_ok_iff.1 h
    obtain ⟨name, hname, rfl⟩ := Schema.exists_text?_of_readKey hkey hreadKey
    cases hread : fields.ofNodeMember? anchors name (.member path name) value with
    | none =>
      rw [readUpdates_other hname hread] at h
      obtain ⟨⟨steps, hsteps, rfl⟩, hnodup, hunseen⟩ := ih hsimple h
      exact ⟨⟨none :: steps, .cons (.other hname hread) hsteps, rfl⟩, hnodup, hunseen⟩
    | some outcome =>
      rw [readUpdates_declared hname hread] at h
      split at h
      -- A field that was seen before is refused, so this one is new.
      · cases h
      next hfirst =>
      obtain ⟨update, rfl, hothers⟩ := Outcome.bind_eq_ok_iff.1 h
      obtain ⟨updates', hrest, heq⟩ := Outcome.bind_eq_ok_iff.1 hothers
      obtain rfl := Except.ok.inj heq
      obtain ⟨⟨steps, hsteps, rfl⟩, hnodup, hunseen⟩ := ih hsimple hrest
      refine ⟨⟨some (name, update) :: steps, .cons (.declared hname hread) hsteps, rfl⟩, ?_, ?_⟩
      · refine List.nodup_cons.2 ⟨fun hmem => ?_, hnodup⟩
        obtain ⟨update', hupdate', heq⟩ := List.mem_map.1 hmem
        exact hunseen update' hupdate' (heq ▸ List.mem_cons_self)
      · refine List.forall_mem_cons.2 ⟨hfirst, fun update' hupdate' hmem => ?_⟩
        exact hunseen update' hupdate' (List.mem_cons_of_mem name hmem)

/-- Members that are visited are read. -/
theorem ReadAs.readUpdates_eq_ok {members : List (Node × Node)} {seen : List String}
    {updates : List (String × (α → α))} (h : fields.ReadAs anchors path seen members updates) :
    fields.readUpdates anchors path seen members = .ok updates := by
  obtain ⟨⟨steps, hsteps, rfl⟩, hnodup, hunseen⟩ := h
  -- By induction on the visits: a change adds its field to those that were seen.
  induction hsteps generalizing seen with
  | nil => rfl
  | @cons m step members steps hvisits hsteps ih =>
    cases hvisits with
    | other hname hread =>
      rw [readUpdates_other hname hread]
      exact ih hnodup hunseen
    | @declared key value name update hname hread =>
      obtain ⟨hfirst, hunseen⟩ := List.forall_mem_cons.1 hunseen
      obtain ⟨hnotin, hnodup⟩ := List.nodup_cons.1 hnodup
      rw [readUpdates_declared hname hread, if_neg hfirst]
      refine Outcome.bind_eq_ok_iff.2 ⟨update, rfl, ?_⟩
      refine Outcome.bind_eq_ok_iff.2 ⟨steps.reduceOption, ih hnodup ?_, rfl⟩
      intro update' hupdate' hmem
      rcases List.mem_cons.1 hmem with heq | hmem
      · exact hnotin (List.mem_map.2 ⟨update', hupdate', heq⟩)
      · exact hunseen update' hupdate' hmem

/-- A record takes its changes by their keys. -/
theorem complete_congr {updates updates' : List (String × (α → α))}
    (h : ∀ key, updates.lookup key = updates'.lookup key) (a : α) :
    fields.complete updates a = fields.complete updates' a := by
  fun_induction keys fields with
  | case1 => rfl
  | case2 α β key required schema get set rest ih =>
    rw [complete, complete, h key]
    simp only [ih h]

/-- **The members of a record** are read to the same changes, in another order. -/
theorem ReadAs.of_reordered (h : fields.EachIgnoresOrder)
    {members inPlace members' : List (Node × Node)}
    (hmembers : Node.MembersReordered members inPlace) (hperm : inPlace.Perm members')
    (hsimple : Node.AreSimpleMembers members)
    {seen : List String} {updates : List (String × (α → α))}
    (hread : fields.ReadAs anchors path seen members updates) (anchors' : List (Nat × Node))
    (path' : Path) :
    ∃ updates', fields.ReadAs anchors' path' seen members' updates' ∧ updates'.Perm updates := by
  obtain ⟨⟨steps, hsteps, rfl⟩, hnodup, hunseen⟩ := hread
  obtain ⟨steps', hsteps', hperm'⟩ := hmembers.exists_forall₂_perm hperm hsimple
    (fun hkey hvalue hsimple hvisits =>
      hvisits.of_reordered h hkey hvalue hsimple anchors' path') hsteps
  have hupdates : steps'.reduceOption.Perm steps.reduceOption := hperm'.filterMap id
  refine ⟨steps'.reduceOption, ⟨⟨steps', hsteps', rfl⟩, ?_, fun update hupdate => ?_⟩, hupdates⟩
  · exact (hupdates.map (·.1)).nodup_iff.2 hnodup
  · exact hunseen update (hupdates.mem_iff.1 hupdate)

end Fields

/-- A record ignores the order if each of its members does. -/
theorem Schema.ignoresOrder_record {α : Type} {name : String} {blank : α} {fields : Fields α}
    (hfields : fields.EachIgnoresOrder) : (record name blank fields).IgnoresOrder := by
  intro node node' h hsimple anchors path a hread anchors' path'
  cases h with
  | @scalar props props' style s htag =>
    simp only [ofNode, Node.target] at hread ⊢
    split at hread
    · next members hmembers =>
      obtain ⟨rfl, rfl, rfl⟩ := Node.eq_of_members?_scalar hmembers
      exact Outcome.mapError_eq_ok_iff.2 (Outcome.mapError_eq_ok_iff.1 hread)
    · cases hread
  | sequence => cases hread
  | @mapping props props' members inPlace members' htag hmembers hperm =>
    obtain ⟨-, hsimple⟩ := hsimple
    have hread := Outcome.mapError_eq_ok_iff.1 hread
    obtain ⟨updates, hupdates, hcomplete⟩ := Outcome.bind_eq_ok_iff.1 hread
    have hcomplete := Outcome.mapError_eq_ok_iff.1 hcomplete
    obtain ⟨updates', hupdates', hperm'⟩ := (Fields.ReadAs.of_readUpdates hsimple
      hupdates).of_reordered hfields hmembers hperm hsimple anchors' path'
    -- The record is put together by looking up its fields, and none was changed twice.
    have hlookup (key : String) : updates'.lookup key = updates.lookup key :=
      KeyMap.lookup_eq_of_perm hperm' hupdates'.nodup key
    refine Outcome.mapError_eq_ok_iff.2 (Outcome.bind_eq_ok_iff.2
      ⟨updates', hupdates'.readUpdates_eq_ok, Outcome.mapError_eq_ok_iff.2 ?_⟩)
    rw [Fields.complete_congr hlookup, hcomplete]
  | standIn => exact hsimple.elim

mutual
/-- **The order of members does not matter** to any schema. -/
theorem Schema.ignoresOrder {α : Type} : ∀ schema : Schema α, schema.IgnoresOrder
  | .text => Schema.ignoresOrder_text
  | .flag => Schema.ignoresOrder_flag
  | .int32 => Schema.ignoresOrder_int32
  | .uint32 => Schema.ignoresOrder_uint32
  | .optional inner => Schema.ignoresOrder_optional inner.ignoresOrder
  | .list item => Schema.ignoresOrder_list item.ignoresOrder
  | .labels => Schema.ignoresOrder_labels
  | .choice _ _ => Schema.ignoresOrder_choice
  | .record _ _ fields => Schema.ignoresOrder_record fields.eachIgnoresOrder

/-- Each member of a record ignores the order. -/
theorem Fields.eachIgnoresOrder {α : Type} : ∀ fields : Fields α, fields.EachIgnoresOrder
  | .nil => trivial
  | .cons _ _ schema _ _ rest => ⟨schema.ignoresOrder, rest.eachIgnoresOrder⟩
end

end MachineTuning
