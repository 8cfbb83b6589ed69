import MachineTuning.Failure
import MachineTuning.Files
import MachineTuning.Profile.Schema
import MachineTuning.Yaml.Document

namespace MachineTuning

/-!
# Loading a profile from a file

One reader is meant to cover YAML and JSON documents.  `Profile.load_compact_eq_ok_iff` says for
which profiles it does.
-/

/-- The profile that the text of a file spells. -/
def Profile.ofText (path text : String) : Except Failure Profile :=
  match Yaml.read Profile.schema text with
  | .ok p => .ok p
  | .error .malformed => .error (.malformedProfile path)
  | .error (.unfit fault) => .error (.profile (path ++ ": " ++ fault.message))

/-- The profile in a file. -/
def Profile.load (fs : FileSystem) (path : String) : Except Failure Profile := do
  let bytes ← (fs path).mapError .io
  match Text.ofUtf8? bytes with
  | some text => Profile.ofText path text
  | none => .error (.io .notUtf8)

end MachineTuning
