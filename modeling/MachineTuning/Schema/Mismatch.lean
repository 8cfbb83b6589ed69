import MachineTuning.Number.Shortest
import MachineTuning.Text.Quoted

namespace MachineTuning

/-!
# Mismatches — why a value does not fit a schema

A `Mismatch` says what was found where something else was expected.  The two document formats
name the null value and write numbers in their own ways, so the wording of a mismatch takes a
`Wording`; everything else about it is shared.
-/

/-- What stood in the document. -/
inductive Found where
  | null
  | boolean (b : Bool)
  | integer (n : Int)
  /-- An integer that 64 bits do not hold. -/
  | wideInteger (n : Int)
  | real (x : Binary64)
  | text (s : String)
  | sequence
  | map
  deriving DecidableEq

/-- Why a value does not fit. -/
inductive Mismatch where
  | invalidType (found : Found) (expected : String)
  | invalidValue (found : Found) (expected : String)
  | invalidLength (length : Nat) (expected : String)
  | unknownVariant (name : String) (options : List String)
  | missingField (key : String)
  | duplicateField (key : String)
  deriving DecidableEq

/-- The words of a document format. -/
structure Wording where
  null : String
  real : Binary64 → String

/-- How a name stands inside a message. -/
def inBackquotes (s : String) : String :=
  "`" ++ s ++ "`"

/-- What was found, in words. -/
def Found.describe (wording : Wording) : Found → String
  | .null => wording.null
  | .boolean b => "boolean " ++ inBackquotes (if b then "true" else "false")
  | .integer n => "integer " ++ inBackquotes (toString n)
  | .wideInteger n =>
    "integer " ++ inBackquotes (toString n) ++ (if n < 0 then " as i128" else " as u128")
  | .real x => "floating point " ++ inBackquotes (wording.real x)
  | .text s => "string " ++ Text.quoted s
  | .sequence => "sequence"
  | .map => "map"

/-- The permitted names of a choice, in words. -/
def describeOptions : List String → String
  | [] => "there are no variants"
  | [a] => "expected " ++ inBackquotes a
  | [a, b] => "expected " ++ inBackquotes a ++ " or " ++ inBackquotes b
  | options => "expected one of " ++ ", ".intercalate (options.map inBackquotes)

/-- A mismatch, in words. -/
def Mismatch.message (wording : Wording) : Mismatch → String
  | .invalidType found expected =>
    "invalid type: " ++ found.describe wording ++ ", expected " ++ expected
  | .invalidValue found expected =>
    "invalid value: " ++ found.describe wording ++ ", expected " ++ expected
  | .invalidLength length expected =>
    "invalid length " ++ toString length ++ ", expected " ++ expected
  | .unknownVariant name options =>
    "unknown variant " ++ inBackquotes name ++ ", " ++ describeOptions options
  | .missingField key => "missing field " ++ inBackquotes key
  | .duplicateField key => "duplicate field " ++ inBackquotes key

end MachineTuning
