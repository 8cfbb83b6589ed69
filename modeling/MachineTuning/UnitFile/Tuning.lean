import MachineTuning.UnitFile

namespace MachineTuning

/-!
# The tuning services — what runs at boot, and in which order

Two services carry out the tuning.  `preBootTuning` applies it before the node takes workloads,
`reboot` then boots the node into it:

```text
pre-boot-tuning.service ──Before──> reboot.service ──Before──> kubelet.service
         └────────────────────Before──────────────────────────────┘
```
-/

namespace Script

/-- The script that applies the tuning. -/
def preBootTuning : String := "pre-boot-tuning"

/-- The script that reboots the node. -/
def reboot : String := "reboot"

/-- Every script, in the order in which they are installed. -/
def catalog : List String := [preBootTuning, reboot]

/-- Where the scripts stand in an asset directory. -/
def assetFolder : String := "scripts"

/-- The ending of a script's file name. -/
def fileExtension : String := "sh"

/-- Where the scripts are installed on a node. -/
def installFolder : String := "/usr/local/bin"

/-- The file name of a script. -/
def fileName (script : String) : String :=
  script ++ "." ++ fileExtension

/-- The path of a script on a node. -/
def installPath (script : String) : String :=
  installFolder ++ "/" ++ fileName script

/-- The service that runs a script. -/
def serviceName (script : String) : String :=
  script ++ ".service"

end Script

namespace UnitFile

/-- A variable as an environment directive gives it. -/
def environment (key value : String) : String :=
  key ++ "=" ++ value

/-- The service that admits workloads. -/
def kubeletService : String := "kubelet.service"

/-- The directives of a service that runs a script once and stays up. -/
def runOnce (script : String) : List Directive :=
  [⟨"Service", "Type", "oneshot"⟩,
    ⟨"Service", "RemainAfterExit", "true"⟩,
    ⟨"Service", "ExecStart", Script.installPath script⟩]

/-- The directive that starts a service at boot. -/
def wantedAtBoot : Directive :=
  ⟨"Install", "WantedBy", "multi-user.target"⟩

/-- The service that applies the tuning.  It runs before the node reboots and before workloads
    are admitted, and is told which CPUs are left for housekeeping. -/
def preBootTuning (housekeeping : String) : List Directive :=
  [⟨"Unit", "Description", "Preboot tuning patch"⟩,
    ⟨"Unit", "Before", kubeletService⟩,
    ⟨"Unit", "Before", Script.serviceName Script.reboot⟩,
    ⟨"Service", "Environment", environment "NON_ISOLATED_CPUS" housekeeping⟩] ++
    runOnce Script.preBootTuning ++ [wantedAtBoot]

/-- The service that reboots the node.  It waits for the network and runs before workloads are
    admitted. -/
def reboot : List Directive :=
  [⟨"Unit", "Description", "Reboot initiated by pre-boot-tuning"⟩,
    ⟨"Unit", "Wants", "network-online.target"⟩,
    ⟨"Unit", "After", "network-online.target"⟩,
    ⟨"Unit", "Before", kubeletService⟩] ++
    runOnce Script.reboot ++ [wantedAtBoot]

/-- Both services, each with its script, in the order in which they are installed. -/
def tuning (housekeeping : String) : List (String × List Directive) :=
  [(Script.preBootTuning, preBootTuning housekeeping), (Script.reboot, reboot)]

end UnitFile

end MachineTuning
