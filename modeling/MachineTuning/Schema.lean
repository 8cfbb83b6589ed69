import MachineTuning.Json
import MachineTuning.KeyMap

namespace MachineTuning

/-!
# Schemas — how a type of this library stands in a document

A `Schema α` describes the documents that hold a value of type `α`.  One schema serves every
direction: writing a value (`Schema.toJson`), reading it from JSON and reading it from YAML.  A
record is a list of `Fields`; each names its member, says whether the member may be missing, and
gives access to its part of the record:

* `get` takes the part out, for writing;
* `set` puts it in, for reading, starting from the record's `blank` value, which holds what a
  missing member stands for.
-/

mutual
/-- How values of a type stand in a document. -/
inductive Schema : Type → Type 1 where
  /-- A text. -/
  | text : Schema String
  /-- `true` or `false`. -/
  | flag : Schema Bool
  /-- An integer that a signed 32-bit word holds. -/
  | int32 : Schema Int32
  /-- An integer that an unsigned 32-bit word holds. -/
  | uint32 : Schema UInt32
  /-- A value, or null for none. -/
  | optional {α : Type} (inner : Schema α) : Schema (Option α)
  /-- A sequence of values. -/
  | list {α : Type} (item : Schema α) : Schema (List α)
  /-- Texts under text keys. -/
  | labels : Schema (KeyMap String)
  /-- One of several named values. -/
  | choice {α : Type} (options : List (String × α)) (name : α → String) : Schema α
  /-- Named members. -/
  | record {α : Type} (name : String) (blank : α) (fields : Fields α) : Schema α

/-- The members of a record, in the order in which they are written. -/
inductive Fields : Type → Type 1 where
  | nil {α : Type} : Fields α
  | cons {α β : Type} (key : String) (required : Bool) (schema : Schema β) (get : α → β)
      (set : β → α → α) (rest : Fields α) : Fields α
end

namespace Fields

variable {α : Type}

/-- The number of members. -/
def length : Fields α → Nat
  | .nil => 0
  | .cons _ _ _ _ _ rest => rest.length + 1

/-- The names of the members, in order. -/
def keys : Fields α → List String
  | .nil => []
  | .cons key _ _ _ _ rest => key :: rest.keys

end Fields

/-! ### Writing -/

mutual
/-- A value as a document holds it. -/
def Schema.toJson {α : Type} : Schema α → α → Json
  | .text, s => .text s
  | .flag, b => .boolean b
  | .int32, n => .ofInt n.toInt
  | .uint32, n => .ofInt n.toNat
  | .optional inner, a? =>
    match a? with
    | none => .null
    | some a => inner.toJson a
  | .list item, as => .array (as.map item.toJson)
  | .labels, m => .object (m.toList.map fun e => (e.1, .text e.2))
  | .choice _ name, a => .text (name a)
  | .record _ _ fields, a => .object (fields.toMembers a)

/-- The members of a record; one whose value is null is left out. -/
def Fields.toMembers {α : Type} : Fields α → α → List (String × Json)
  | .nil, _ => []
  | .cons key _ schema get _ rest, a =>
    let value := schema.toJson (get a)
    if value.isNull then rest.toMembers a else (key, value) :: rest.toMembers a
end

-- Every proof about what is written goes by these equations, so they are derived here, once.
attribute [grind =] Schema.toJson Fields.toMembers

end MachineTuning
