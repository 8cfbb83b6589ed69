import MachineTuning.Number.Binary64

namespace MachineTuning

/-!
# JSON values

A `Json` value keeps what a document spells: the members of an object stay in the order and
number in which they were written, and a number is either an integer of at most 64 bits or the
binary64 number that stands for it.
-/

/-- A number of a document. -/
inductive Json.Number where
  | integer (n : Int)
  | real (x : Binary64)
  deriving DecidableEq

/-- A value of a document. -/
inductive Json where
  | null
  | boolean (b : Bool)
  | number (n : Json.Number)
  | text (s : String)
  | array (items : List Json)
  | object (members : List (String × Json))

namespace Json

/-- An integer as a value. -/
def ofInt (n : Int) : Json :=
  .number (.integer n)

/-- Whether a value is `null`. -/
def isNull : Json → Bool
  | .null => true
  | _ => false

/-- Null stands where any value will do. -/
instance : Inhabited Json := ⟨.null⟩

end Json

end MachineTuning
