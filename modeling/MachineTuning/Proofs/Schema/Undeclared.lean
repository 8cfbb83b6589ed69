import MachineTuning.MachineConfig
import MachineTuning.Profile.Schema
import MachineTuning.Proofs.Schema.Conformity

namespace MachineTuning

/-!
# Schemas — members that no record declares

An object that stands for a record may have more members than the record declares.  They are
visited with the others, in the order of the keys, and make no difference: neither to the value that
is read nor to the mismatch that is reported first.

* `Schema.Extended` — a value with more members in the objects that stand for records, at any depth;
* `Fields.ofJson_object_eq_readings` — of an object, a record takes the readings of the members it
  declares;
* `Schema.ignoresUndeclared` — so by every schema the outcome is the same for both values;
* `ofJson_eq_of_extended` — and profiles and machine configurations are read alike from both.
-/

/-! ### Values with more members -/

/-- Members with others put between them whose names are not declared.  What stands under the same
    name in both is related by `R`. -/
inductive Json.MembersExtended (declared : List String) (R : String → Json → Json → Prop) :
    List (String × Json) → List (String × Json) → Prop
  | nil : MembersExtended declared R [] []
  | keep {key : String} {v v' : Json} {members members' : List (String × Json)}
      (hvalue : R key v v') (hrest : MembersExtended declared R members members') :
      MembersExtended declared R ((key, v) :: members) ((key, v') :: members')
  | insert {key : String} {members members' : List (String × Json)} (hkey : key ∉ declared)
      (v : Json) (hrest : MembersExtended declared R members members') :
      MembersExtended declared R members ((key, v) :: members')

mutual
/-- One value is another with members put into some of the objects that stand for records, which the
    records do not declare.  An object of labels and one that names a choice stay as they are. -/
def Schema.Extended {α : Type} : Schema α → Json → Json → Prop
  | .optional inner, v, v' => inner.Extended v v'
  | .list item, v, v' =>
    match v, v' with
    | .array items, .array items' => List.Forall₂ (fun v v' => item.Extended v v') items items'
    | v, v' => v' = v
  | .record _ _ fields, v, v' =>
    match v, v' with
    | .object members, .object members' =>
      Json.MembersExtended fields.keys (fun key v v' => fields.MemberExtended key v v') members
        members'
    | .array items, .array items' => fields.ItemsExtended items items'
    | v, v' => v' = v
  | _, v, v' => v' = v

/-- The value of a member is extended as its field says; that of any other member stays. -/
def Fields.MemberExtended {α : Type} : Fields α → String → Json → Json → Prop
  | .nil, _, v, v' => v' = v
  | .cons key _ schema _ _ rest, name, v, v' =>
    if name = key then schema.Extended v v' else rest.MemberExtended name v v'

/-- The items of an array are extended as the fields in their places say. -/
def Fields.ItemsExtended {α : Type} : Fields α → List Json → List Json → Prop
  | .cons _ _ schema _ _ rest, item :: items, item' :: items' =>
    schema.Extended item item' ∧ rest.ItemsExtended items items'
  | _, items, items' => items' = items
end

/-- Members extend themselves if their values do. -/
theorem Json.MembersExtended.refl {declared : List String} {R : String → Json → Json → Prop}
    (hR : ∀ key v, R key v v) (members : List (String × Json)) :
    Json.MembersExtended declared R members members := by
  induction members with
  | nil => exact .nil
  | cons member members ih => exact .keep (hR member.1 member.2) ih

mutual
/-- Nothing need be put in. -/
theorem Schema.extended_refl {α : Type} : ∀ (schema : Schema α) (v : Json), schema.Extended v v
  | .text, _ | .flag, _ | .int32, _ | .uint32, _ | .labels, _ | .choice _ _, _ => rfl
  | .optional inner, v => inner.extended_refl v
  | .list item, v => by
    cases v with
    | array items => exact List.forall₂_same.2 fun v _ => item.extended_refl v
    | _ => rfl
  | .record _ _ fields, v => by
    cases v with
    | object members => exact .refl (fun name v => fields.memberExtended_refl name v) members
    | array items => exact fields.itemsExtended_refl items
    | _ => rfl

/-- A member extends itself. -/
theorem Fields.memberExtended_refl {α : Type} : ∀ (fields : Fields α) (name : String) (v : Json),
    fields.MemberExtended name v v
  | .nil, _, _ => rfl
  | .cons key _ schema _ _ rest, name, v => by
    rw [Fields.MemberExtended]
    split_ifs
    · exact schema.extended_refl v
    · exact rest.memberExtended_refl name v

/-- The items of a record in array form extend themselves. -/
theorem Fields.itemsExtended_refl {α : Type} : ∀ (fields : Fields α) (items : List Json),
    fields.ItemsExtended items items
  | .nil, _ => rfl
  | .cons _ _ _ _ _ _, [] => rfl
  | .cons _ _ schema _ _ rest, item :: items =>
    ⟨schema.extended_refl item, rest.itemsExtended_refl items⟩
end

/-! ### What a record takes of an object -/

namespace Fields

variable {α : Type} {fields : Fields α} {members members' : List (String × Json)}

/-- The reading of a declared member under its name. -/
def reading (fields : Fields α) (m : String × Json) :
    Option (String × Except Mismatch (α → α)) :=
  (fields.ofMember? m.1 m.2).map (m.1, ·)

/-- The reading of a member depends on its name alone, as far as there is one. -/
theorem isSome_ofMember?_congr (fields : Fields α) (key : String) (v v' : Json) :
    (fields.ofMember? key v).isSome = (fields.ofMember? key v').isSome := by
  rw [Bool.eq_iff_iff, isSome_ofMember?_iff, isSome_ofMember?_iff]

/-- **Of an object**, a record takes the readings of the members it declares, one after the other in
    the order of their names. -/
theorem ofJson_object_eq_readings (name : String) (blank : α) (fields : Fields α)
    (members : List (String × Json)) :
    (Schema.record name blank fields).ofJson (.object members) =
      (KeyMap.ofList (members.filterMap fields.reading)).toList.mapM
          (fun e => e.2.map fun update => (e.1, update)) >>=
        fun updates => fields.complete updates blank := by
  have hreadings : (KeyMap.ofList (members.filterMap fields.reading)).toList =
      (Json.visitingOrder members).filterMap fields.reading :=
    KeyMap.toList_ofList_filterMap fields.isSome_ofMember?_congr members
  rw [ofJson_object_eq, hreadings]
  refine congrArg (· >>= fun updates => fields.complete updates blank) ?_
  -- Members that are not declared are passed over by both sides; the others are read one by one.
  induction Json.visitingOrder members with
  | nil => rfl
  | cons m visited ih =>
    rw [List.filterMapM_cons, List.filterMap_cons, ih, visit, reading]
    cases fields.ofMember? m.1 m.2 with
    | none => rfl
    | some read =>
      rw [Option.map_some, List.mapM_cons]
      cases read <;> rfl

end Fields

/-! ### Reading -/

namespace Schema

variable {α : Type}

/-- The outcome is the same for every extended value. -/
def IgnoresUndeclared (schema : Schema α) : Prop :=
  ∀ {v v' : Json}, schema.Extended v v' → schema.ofJson v' = schema.ofJson v

/-- Nothing is put into a null value, and no other value becomes one. -/
theorem eq_null_iff_of_extended {v v' : Json} :
    ∀ {α : Type} (schema : Schema α), schema.Extended v v' → (v' = .null ↔ v = .null)
  | _, .optional inner, h => eq_null_iff_of_extended inner h
  | _, .text, h | _, .flag, h | _, .int32, h | _, .uint32, h | _, .labels, h | _, .choice _ _, h =>
    Eq.congr_left h
  | _, .list _, h => by
    unfold Schema.Extended at h
    split at h
    · simp
    · exact Eq.congr_left h
  | _, .record _ _ _, h => by
    unfold Schema.Extended at h
    split at h
    · simp
    · simp
    · exact Eq.congr_left h

/-- A part that may be missing ignores undeclared members if the part itself does. -/
theorem ignoresUndeclared_optional {inner : Schema α} (hinner : inner.IgnoresUndeclared) :
    (optional inner).IgnoresUndeclared := by
  intro v v' h
  have hnull : v' = .null ↔ v = .null := eq_null_iff_of_extended inner h
  by_cases hv : v = .null
  · rw [hv, hnull.2 hv]
  · rw [ofJson_optional hv, ofJson_optional (mt hnull.1 hv), hinner h]

/-- A list ignores undeclared members if its items do. -/
theorem ignoresUndeclared_list {item : Schema α} (hitem : item.IgnoresUndeclared) :
    (list item).IgnoresUndeclared := by
  intro v v' h
  unfold Extended at h
  split at h
  · next items items' =>
    show items'.mapM item.ofJson = items.mapM item.ofJson
    induction h with
    | nil => rfl
    | cons hfirst _ ih => rw [List.mapM_cons, List.mapM_cons, hitem hfirst, ih]
  · rw [h]

end Schema

namespace Fields

/-- Every declared member is read alike from an extended value. -/
def EachIgnoresUndeclared {α : Type} : Fields α → Prop
  | .nil => True
  | .cons _ _ schema _ _ rest => schema.IgnoresUndeclared ∧ rest.EachIgnoresUndeclared

variable {α : Type} {fields : Fields α} (h : fields.EachIgnoresUndeclared)
include h

/-- A declared member is read as before if its value was only extended. -/
theorem ofMember?_of_extended {name : String} {v v' : Json}
    (hvalue : fields.MemberExtended name v v') :
    fields.ofMember? name v' = fields.ofMember? name v := by
  fun_induction keys fields with
  | case1 => rfl
  | case2 α β key required schema get set rest ih =>
    obtain ⟨hschema, hrest⟩ := h
    rw [MemberExtended] at hvalue
    rw [ofMember?, ofMember?]
    split_ifs at hvalue ⊢ with hkey
    · rw [hschema hvalue]
    · exact ih hrest hvalue

omit h in
/-- A record in array form has as many items as before. -/
theorem length_eq_of_itemsExtended {items items' : List Json}
    (hitems : fields.ItemsExtended items items') : items'.length = items.length := by
  fun_induction keys fields generalizing items items' with
  | case1 => exact congrArg List.length hitems
  | case2 α β key required schema get set rest ih =>
    cases items with
    | nil => exact congrArg List.length hitems
    | cons item items =>
      cases items' with
      | nil => cases hitems
      | cons item' items' => exact congrArg (· + 1) (ih hitems.2)

/-- An array is read alike field by field. -/
theorem ofItems_of_extended {items items' : List Json} (hitems : fields.ItemsExtended items items')
    (tooShort : Nat → Mismatch) (tooLong : Mismatch) (index : Nat) (a : α) :
    fields.ofItems tooShort tooLong index items' a =
      fields.ofItems tooShort tooLong index items a := by
  -- Arrays are read by position: fields and items are walked together, and neither list grew.
  fun_induction keys fields generalizing items items' index with
  | case1 =>
    obtain rfl : items' = items := hitems
    rfl
  | case2 α β key required schema get set rest ih =>
    obtain ⟨hschema, hrest⟩ := h
    cases items with
    | nil =>
      obtain rfl : items' = [] := hitems
      rfl
    | cons item items =>
      cases items' with
      | nil => cases hitems
      | cons item' items' =>
        obtain ⟨hfirst, hitems⟩ := hitems
        rw [ofItems, ofItems, hschema hfirst]
        exact congrArg _ (funext fun b => ih hrest hitems (index + 1) (set b a))

/-- Of an object the same members are read. -/
theorem filterMap_reading_of_extended {members members' : List (String × Json)}
    (hmembers : Json.MembersExtended fields.keys (fun key v v' => fields.MemberExtended key v v')
      members members') :
    members'.filterMap fields.reading = members.filterMap fields.reading := by
  induction hmembers with
  | nil => rfl
  | keep hvalue _ ih =>
    rw [List.filterMap_cons, List.filterMap_cons, ih, reading, reading,
      ofMember?_of_extended h hvalue]
  | @insert key _ _ hkey v _ ih =>
    have hnone : fields.ofMember? key v = none := by
      rw [← Option.not_isSome_iff_eq_none, isSome_ofMember?_iff]
      exact hkey
    rw [List.filterMap_cons, reading, hnone, Option.map_none, ih]

end Fields

/-- A record ignores undeclared members if each of its own does. -/
theorem Schema.ignoresUndeclared_record {α : Type} {name : String} {blank : α} {fields : Fields α}
    (hfields : fields.EachIgnoresUndeclared) : (record name blank fields).IgnoresUndeclared := by
  intro v v' h
  unfold Extended at h
  split at h
  · rw [Fields.ofJson_object_eq_readings, Fields.ofJson_object_eq_readings,
      Fields.filterMap_reading_of_extended hfields h]
  · next items items' =>
    rw [ofJson, ofJson, Fields.length_eq_of_itemsExtended h, Fields.ofItems_of_extended hfields h]
  · rw [h]

mutual
/-- **Members that no record declares make no difference** to any schema. -/
theorem Schema.ignoresUndeclared {α : Type} : ∀ schema : Schema α, schema.IgnoresUndeclared
  | .text, _, _, h | .flag, _, _, h | .int32, _, _, h | .uint32, _, _, h | .labels, _, _, h
  | .choice _ _, _, _, h => congrArg _ h
  | .optional inner, _, _, h => Schema.ignoresUndeclared_optional inner.ignoresUndeclared h
  | .list item, _, _, h => Schema.ignoresUndeclared_list item.ignoresUndeclared h
  | .record _ _ fields, _, _, h => Schema.ignoresUndeclared_record fields.eachIgnoresUndeclared h

/-- Each member of a record ignores undeclared members inside it. -/
theorem Fields.eachIgnoresUndeclared {α : Type} : ∀ fields : Fields α, fields.EachIgnoresUndeclared
  | .nil => trivial
  | .cons _ _ schema _ _ rest => ⟨schema.ignoresUndeclared, rest.eachIgnoresUndeclared⟩
end

/-- **Members that are not declared have no influence.**  A value that has more members in the
    objects that stand for records, at any depth, is read as the same profile, or fails for the same
    reason.  The same holds of a machine configuration, and of the ignition document in it. -/
theorem ofJson_eq_of_extended {v v' : Json} :
    (Profile.schema.Extended v v' → Profile.schema.ofJson v' = Profile.schema.ofJson v) ∧
    (MachineConfig.schema.Extended v v' →
      MachineConfig.schema.ofJson v' = MachineConfig.schema.ofJson v) ∧
    (Ignition.Document.schema.Extended v v' →
      Ignition.Document.schema.ofJson v' = Ignition.Document.schema.ofJson v) :=
  ⟨Profile.schema.ignoresUndeclared, MachineConfig.schema.ignoresUndeclared,
    Ignition.Document.schema.ignoresUndeclared⟩

/-- More members in front of, between and behind those of a profile, whose count of pages is what is
    wrong with it, and of a machine configuration with nothing wrong. -/
theorem ofJson_eq_of_extended_pageCount :
    let profile (first last inPages inPage : List (String × Json)) : Json :=
      .object (first ++ [("metadata", .object [("name", .text "a")]),
        ("spec", .object [("cpu", .array [.null, .text "b"]),
          ("hugePages", .object (inPages ++ [("pages", .array [.object (inPage ++
            [("size", .text "1G"), ("count", .text "4")])])]))])] ++ last)
    let v := profile [] [] [] []
    let v' := profile [("Metadata", .null)] [("status", .object [("name", .boolean true)])]
      [("page", .array [])] [("counts", .null)]
    let config (inUnit inSpec : List (String × Json)) : Json :=
      .object [("apiVersion", .text "v"), ("kind", .text "k"),
        ("metadata", .object [("name", .text "a")]),
        ("spec", .object (("config", .object [("ignition", .object [("version", .text "2")]),
          ("storage", .object []), ("systemd", .object [("units", .array
            [.object (("name", .text "u") :: inUnit)])])]) :: inSpec))]
    let w := config [] []
    let w' := config [("dropins", .array [.null])] [("osImageURL", .text "")]
    Profile.schema.Extended v v' ∧ MachineConfig.schema.Extended w w' ∧
      Profile.schema.ofJson v' = .error (.invalidType (.text "4") "i32") ∧
      MachineConfig.schema.ofJson w' =
        .ok ⟨"v", "k", "a", .empty, ⟨⟨"2", [], [⟨"u", none, none⟩]⟩, [], .stock⟩⟩ := by
  intro profile v v' config w w'
  -- Members come in at three depths, in front of those that are declared and behind them.
  have hprofile : Profile.schema.Extended v v' := by
    refine .insert (by decide) _ (.keep ?metadata (.keep ?spec (.insert (by decide) _ .nil)))
    case metadata => exact Fields.memberExtended_refl _ _ _
    case spec =>
      show Json.MembersExtended _ _ _ _
      refine .keep (Fields.memberExtended_refl _ _ _) (.keep ?hugePages .nil)
      show Json.MembersExtended _ _ _ _
      refine .insert (by decide) _ (.keep (.cons ?page .nil) .nil)
      show Json.MembersExtended _ _ _ _
      exact .insert (by decide) _ (.keep rfl (.keep rfl .nil))
  have hconfig : MachineConfig.schema.Extended w w' := by
    refine .keep rfl (.keep rfl (.keep ?metadata (.keep ?spec .nil)))
    case metadata => exact Fields.memberExtended_refl _ _ _
    case spec =>
      show Json.MembersExtended _ _ _ _
      refine .keep ?config (.insert (by decide) _ .nil)
      show Json.MembersExtended _ _ _ _
      refine .keep (Fields.memberExtended_refl _ _ _)
        (.keep (Fields.memberExtended_refl _ _ _) (.keep ?systemd .nil))
      show Json.MembersExtended _ _ _ _
      refine .keep (.cons ?unit .nil) .nil
      show Json.MembersExtended _ _ _ _
      exact .keep rfl (.insert (by decide) _ .nil)
  refine ⟨hprofile, hconfig, ?_, ?_⟩
  · rw [ofJson_eq_of_extended.1 hprofile]
    rfl
  · rw [ofJson_eq_of_extended.2.1 hconfig]
    rfl

end MachineTuning
