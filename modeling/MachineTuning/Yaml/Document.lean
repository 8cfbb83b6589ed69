import MachineTuning.Schema.OfYaml
import MachineTuning.Yaml.Node.OfTokens
import MachineTuning.Yaml.Token.Scanner

namespace MachineTuning.Yaml

/-!
# Reading YAML documents

`Document.parse?` reads a text that holds one document, and `read` goes on to the value that the
document spells by a schema.
-/

/-- A document: its root, and the anchored nodes below it. -/
structure Document where
  root : Node
  anchors : List (Nat × Node)
  deriving DecidableEq

/-- The document that a text holds, if it is well formed. -/
def Document.parse? (s : String) : Option Document := do
  let root ← Node.ofTokens? (← Token.ofChars? s.toList)
  some ⟨root, root.anchored⟩

/-- Why a text gives no value. -/
inductive ReadFault where
  /-- It is no document. -/
  | malformed
  /-- It is one, but does not spell the value. -/
  | unfit (fault : Fault)

/-- The value that a text spells. -/
def read {α : Type} (schema : Schema α) (s : String) : Except ReadFault α :=
  match Document.parse? s with
  | none => .error .malformed
  | some document => (schema.ofNode document.anchors .root document.root).mapError .unfit

end MachineTuning.Yaml
