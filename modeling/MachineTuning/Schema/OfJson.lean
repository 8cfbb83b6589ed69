import MachineTuning.Schema
import MachineTuning.Schema.Mismatch

namespace MachineTuning

/-!
# Reading JSON values by a schema

`Schema.ofJson` reads a value.  The members of an object are visited in the order of their keys,
of several under one key the last counts, and members that the record does not declare are
passed over.  The first member that does not fit decides the outcome; only when all fit is a
missing required member reported, the first in the order of the declaration.  A record may also
be spelled as the array of its fields, without those at the end that may be missing.
-/

/-- The words of mismatches in JSON values. -/
def Json.wording : Wording := ⟨"null", Binary64.scientificText⟩

/-- What a JSON value is called in a mismatch. -/
def Json.found : Json → Found
  | .null => .null
  | .boolean b => .boolean b
  | .number (.integer n) => .integer n
  | .number (.real x) => .real x
  | .text s => .text s
  | .array _ => .sequence
  | .object _ => .map

/-- The members of an object in the order of their keys, the last of each key. -/
def Json.visitingOrder (members : List (String × Json)) : List (String × Json) :=
  (KeyMap.ofList members).toList

/-- A signed 32-bit word, if it holds the integer. -/
def int32OfInt? (n : Int) : Option Int32 :=
  if -0x80000000 ≤ n ∧ n < 0x80000000 then some (Int32.ofInt n) else none

/-- An unsigned 32-bit word, if it holds the integer. -/
def uint32OfInt? (n : Int) : Option UInt32 :=
  if 0 ≤ n ∧ n < 0x100000000 then some (UInt32.ofNat n.toNat) else none

/-- The value that a name stands for among the options of a choice. -/
def optionNamed {α : Type} (options : List (String × α)) (name : String) : Except Mismatch α :=
  match options.lookup name with
  | some a => .ok a
  | none => .error (.unknownVariant name (options.map (·.1)))

/-- How a record of a name and a number of fields is called where an array is too short. -/
def describeFieldCount (name : String) (count : Nat) : String :=
  "struct " ++ name ++ " with " ++ toString count ++ (if count = 1 then " element" else " elements")

namespace Fields

variable {α : Type}

/-- The record whose members were read as `updates`: each declared member is put in, in the
    order of the declaration, and one that may be missing stays as it is. -/
def complete : Fields α → List (String × (α → α)) → α → Except Mismatch α
  | .nil, _, a => .ok a
  | .cons key required _ _ _ rest, updates, a =>
    match updates.lookup key with
    | some update => rest.complete updates (update a)
    | none => if required then .error (.missingField key) else rest.complete updates a

end Fields

mutual
/-- The value that a JSON value spells, or why it does not fit. -/
def Schema.ofJson {α : Type} : Schema α → Json → Except Mismatch α
  | .text, v =>
    match v with
    | .text s => .ok s
    | v => .error (.invalidType v.found "a string")
  | .flag, v =>
    match v with
    | .boolean b => .ok b
    | v => .error (.invalidType v.found "a boolean")
  | .int32, v =>
    match v with
    | .number (.integer n) =>
      match int32OfInt? n with
      | some word => .ok word
      | none => .error (.invalidValue (.integer n) "i32")
    | v => .error (.invalidType v.found "i32")
  | .uint32, v =>
    match v with
    | .number (.integer n) =>
      match uint32OfInt? n with
      | some word => .ok word
      | none => .error (.invalidValue (.integer n) "u32")
    | v => .error (.invalidType v.found "u32")
  | .optional inner, v =>
    match v with
    | .null => .ok none
    | v => (inner.ofJson v).map some
  | .list item, v =>
    match v with
    | .array items => items.mapM item.ofJson
    | v => .error (.invalidType v.found "a sequence")
  | .labels, v =>
    match v with
    | .object members => do
      let entries ← (Json.visitingOrder members).mapM fun m =>
        match m.2 with
        | .text s => .ok (m.1, s)
        | v => .error (.invalidType v.found "a string")
      .ok (KeyMap.ofList entries)
    | v => .error (.invalidType v.found "a map")
  | .choice options _, v =>
    match v with
    | .text s => optionNamed options s
    | .object members =>
      match Json.visitingOrder members with
      | [(name, content)] => do
        let a ← optionNamed options name
        if content.isNull then .ok a else .error (.invalidType content.found "unit")
      | _ => .error (.invalidValue .map "map with a single key")
    | v => .error (.invalidType v.found "string or map")
  | .record name blank fields, v =>
    match v with
    | .object members => do
      -- All members are read before a missing one is looked for.
      let updates ← (Json.visitingOrder members).filterMapM fun m =>
        match fields.ofMember? m.1 m.2 with
        | some read => read.map fun update => some (m.1, update)
        | none => .ok none
      fields.complete updates blank
    | .array items =>
      fields.ofItems (fun length => .invalidLength length (describeFieldCount name fields.length))
        (.invalidLength items.length "fewer elements in array") 0 items blank
    | v => .error (.invalidType v.found ("struct " ++ name))

/-- The reading of a member as a change to the record, if the member is declared. -/
def Fields.ofMember? {α : Type} : Fields α → String → Json → Option (Except Mismatch (α → α))
  | .nil, _, _ => none
  | .cons key _ schema _ set rest, name, v =>
    if name = key then some ((schema.ofJson v).map set) else rest.ofMember? name v

/-- The record whose fields an array spells in their order, from field `index` on. -/
def Fields.ofItems {α : Type} : Fields α → (tooShort : Nat → Mismatch) → (tooLong : Mismatch) →
    (index : Nat) → List Json → α → Except Mismatch α
  | .nil, _, _, _, [], a => .ok a
  | .nil, _, tooLong, _, _ :: _, _ => .error tooLong
  | .cons _ _ schema _ set rest, tooShort, tooLong, index, item :: items, a => do
    rest.ofItems tooShort tooLong (index + 1) items (set (← schema.ofJson item) a)
  | .cons _ required _ _ _ rest, tooShort, tooLong, index, [], a =>
    if required then .error (tooShort index)
    else rest.ofItems tooShort tooLong (index + 1) [] a
end

-- Every proof about the reader goes by these equations, so they are derived here, once for all.
attribute [grind =] Schema.ofJson Fields.ofMember? Fields.ofItems

end MachineTuning
