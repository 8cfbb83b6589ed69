import MachineTuning.Profile

namespace MachineTuning.Kernel

/-!
# The kernel of a tuned node — its flavor and its command line

`Kernel.arguments` gives the command line: the fixed tuning arguments first, then the isolated
CPUs, the default huge page size and a pair of arguments for each size of pages, as far as they
are set.  Values are copied as they are spelled.
-/

/-- The tuning arguments of every node. -/
def baseArguments : List String :=
  ["nohz=on", "nosoftlockup", "nmi_watchdog=0", "audit=0", "mce=off", "irqaffinity=0",
    "skew_tick=1", "processor.max_cstate=1", "idle=poll", "intel_pstate=disable",
    "intel_idle.max_cstate=0", "intel_iommu=on", "iommu=pt"]

/-- The arguments for pages of one size. -/
def pageArguments (page : HugePage) : List String :=
  ["hugepagesz=" ++ page.size, "hugepages=" ++ toString page.count.toInt]

/-- The arguments for huge pages. -/
def hugePageArguments (pages : HugePages) : List String :=
  (pages.defaultSize.map ("default_hugepagesz=" ++ ·)).toList ++ pages.pages.flatMap pageArguments

/-- The kernel command line of a node. -/
def arguments (hugePages : Option HugePages) (isolated : Option String) : List String :=
  baseArguments ++ (isolated.map ("isolcpus=" ++ ·)).toList ++
    (hugePages.map hugePageArguments).getD []

/-- The kernel command line that a profile asks for. -/
def argumentsFor (p : Profile) : List String :=
  arguments p.spec.hugePages p.spec.cpus.isolated

/-- The kernel that a node boots. -/
inductive Flavor where
  | stock
  | realTime
  deriving DecidableEq

namespace Flavor

/-- The name of a flavor in documents. -/
def name : Flavor → String
  | .stock => "default"
  | .realTime => "realtime"

/-- The flavors by their names. -/
def options : List (String × Flavor) :=
  [(stock.name, stock), (realTime.name, realTime)]

/-- The real-time kernel only where a profile asks for it. -/
def ofProfile (p : Profile) : Flavor :=
  if p.realTimeEnabled then .realTime else .stock

end Flavor

end MachineTuning.Kernel
