import MachineTuning.Profile

namespace MachineTuning

/-!
# Changes to a profile

A profile is built by setting its optional parts one after the other.  `Profile.Change` names
the steps and `Profile.changed` takes a list of them.
-/

/-- A step that sets one part of a profile. -/
inductive Profile.Change where
  | isolated (cpus : String)
  | hugePages (pages : HugePages)
  | realTimeKernel (enabled : Option Bool)
  | labels (labels : KeyMap String)
  deriving DecidableEq

namespace Profile

/-- The profile after one step. -/
def apply (p : Profile) : Change → Profile
  | .isolated cpus => p.withIsolated cpus
  | .hugePages pages => p.withHugePages pages
  | .realTimeKernel enabled => p.withRealTimeKernel enabled
  | .labels labels => p.withLabels labels

/-- The profile after several steps. -/
def changed (p : Profile) (changes : List Change) : Profile :=
  changes.foldl apply p

end Profile

end MachineTuning
