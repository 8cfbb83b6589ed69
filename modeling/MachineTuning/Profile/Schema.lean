import MachineTuning.Profile
import MachineTuning.Schema

namespace MachineTuning

/-!
# The document form of a profile

Every optional part may be missing or null.  A list of pages may be missing but not null.
-/

/-- Pages of one size. -/
def HugePage.schema : Schema HugePage :=
  .record "HugePage" ⟨"", 0⟩ <|
    .cons "size" true .text HugePage.size (fun size p => { p with size }) <|
    .cons "count" true .int32 HugePage.count (fun count p => { p with count }) .nil

/-- The huge pages of a node. -/
def HugePages.schema : Schema HugePages :=
  .record "HugePages" ⟨none, []⟩ <|
    .cons "defaultHugepagesSize" false (.optional .text) HugePages.defaultSize
      (fun defaultSize p => { p with defaultSize }) <|
    .cons "pages" false (.list HugePage.schema) HugePages.pages
      (fun pages p => { p with pages }) .nil

/-- The CPUs of a node. -/
def CpuPartition.schema : Schema CpuPartition :=
  .record "CpuSpec" ⟨none, ""⟩ <|
    .cons "isolated" false (.optional .text) CpuPartition.isolated
      (fun isolated p => { p with isolated }) <|
    .cons "nonIsolated" true .text CpuPartition.housekeeping
      (fun housekeeping p => { p with housekeeping }) .nil

/-- The wish for a real-time kernel. -/
def RealTimeKernel.schema : Schema RealTimeKernel :=
  .record "RealTimeKernel" ⟨none⟩ <|
    .cons "enabled" false (.optional .flag) RealTimeKernel.enabled
      (fun enabled p => { p with enabled }) .nil

/-- What a profile asks for. -/
def TuningSpec.schema : Schema TuningSpec :=
  .record "PerformanceProfileSpec" ⟨⟨none, ""⟩, none, none, none⟩ <|
    .cons "cpu" true CpuPartition.schema TuningSpec.cpus (fun cpus p => { p with cpus }) <|
    .cons "hugePages" false (.optional HugePages.schema) TuningSpec.hugePages
      (fun hugePages p => { p with hugePages }) <|
    .cons "realTimeKernel" false (.optional RealTimeKernel.schema) TuningSpec.realTimeKernel
      (fun realTimeKernel p => { p with realTimeKernel }) <|
    .cons "machineConfigLabel" false (.optional .labels) TuningSpec.labels
      (fun labels p => { p with labels }) .nil

/-- The identity of a profile, which is its name. -/
def Profile.identitySchema : Schema String :=
  .record "ProfileMeta" "" <|
    .cons "name" true .text (fun name => name) (fun name _ => name) .nil

/-- A performance profile. -/
def Profile.schema : Schema Profile :=
  .record "PerformanceProfile" (Profile.new "" "") <|
    .cons "apiVersion" false (.optional .text) Profile.apiVersion
      (fun apiVersion p => { p with apiVersion }) <|
    .cons "kind" false (.optional .text) Profile.kind (fun kind p => { p with kind }) <|
    .cons "metadata" true Profile.identitySchema Profile.name
      (fun name p => { p with name }) <|
    .cons "spec" true TuningSpec.schema Profile.spec (fun spec p => { p with spec }) .nil

end MachineTuning
