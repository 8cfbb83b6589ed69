import MachineTuning.KeyMap

namespace MachineTuning

/-!
# Performance profiles — how a class of nodes is to be tuned

A profile says which CPUs are taken from the general scheduler, how huge pages are laid out and
whether the real-time kernel is used.  CPU lists and page sizes are carried as they are spelled;
nothing here reads them.  A profile is built from `Profile.new` by the `with…` functions, each of
which sets one part and leaves the others alone.
-/

/-- Pages of one size that are set aside at boot. -/
structure HugePage where
  size : String
  count : Int32
  deriving DecidableEq

/-- The huge pages of a node. -/
structure HugePages where
  defaultSize : Option String := none
  pages : List HugePage := []
  deriving DecidableEq

/-- The CPUs of a node: those taken from the general scheduler, and those left for
    housekeeping. -/
structure CpuPartition where
  isolated : Option String
  housekeeping : String
  deriving DecidableEq

/-- The wish for a real-time kernel. -/
structure RealTimeKernel where
  enabled : Option Bool
  deriving DecidableEq

/-- What a profile asks for. -/
structure TuningSpec where
  cpus : CpuPartition
  hugePages : Option HugePages
  realTimeKernel : Option RealTimeKernel
  /-- The labels of the configuration that is made from the profile. -/
  labels : Option (KeyMap String)
  deriving DecidableEq

/-- A performance profile. -/
structure Profile where
  apiVersion : Option String
  kind : Option String
  name : String
  spec : TuningSpec
  deriving DecidableEq

namespace Profile

/-- The profile with only the required parts. -/
def new (name housekeeping : String) : Profile :=
  ⟨none, none, name, ⟨⟨none, housekeeping⟩, none, none, none⟩⟩

/-- The profile with these CPUs isolated. -/
def withIsolated (p : Profile) (cpus : String) : Profile :=
  { p with spec.cpus.isolated := some cpus }

/-- The profile with these huge pages. -/
def withHugePages (p : Profile) (pages : HugePages) : Profile :=
  { p with spec.hugePages := some pages }

/-- The profile with a wish for the real-time kernel, which may stay open. -/
def withRealTimeKernel (p : Profile) (enabled : Option Bool) : Profile :=
  { p with spec.realTimeKernel := some ⟨enabled⟩ }

/-- The profile with labels for its configuration. -/
def withLabels (p : Profile) (labels : KeyMap String) : Profile :=
  { p with spec.labels := some labels }

/-- Whether the real-time kernel is asked for; an open wish counts as no. -/
def realTimeEnabled (p : Profile) : Bool :=
  (p.spec.realTimeKernel.bind (·.enabled)).getD false

end Profile

end MachineTuning
