import MachineTuning.Command.Run
import MachineTuning.Proofs.MachineConfig.ReadBack

namespace MachineTuning

/-!
# Artifacts — a configuration is read back from what is printed for it

A configuration leaves the program as JSON on lines of its own, closed by a line break, and is
stored in the compact layout.  Both texts spell the configuration and nothing else.
-/

/-- **A configuration is read back from its JSON text**, in the compact layout and as it is
    printed. -/
theorem MachineConfig.ofText?_artifact (c : MachineConfig) :
    schema.ofText? (schema.toJson c).compact = some c ∧
      schema.ofText? (Command.configText .json c) = some c :=
  ⟨Schema.ofText?_compact readsBack_schema c, ofText?_pretty_line c⟩

end MachineTuning
