import MachineTuning.MachineConfig
import MachineTuning.Proofs.Assets
import MachineTuning.Proofs.DataUri
import MachineTuning.Proofs.UnitFile.Layout

namespace MachineTuning

/-!
# Contents — what stands in the configuration of a profile

A configuration is made of names and tables that are spread over the library.  This file spells out
what comes of them, so that a reader need not look them up and a change to one of them shows.

* `UnitFile.text_preBootTuning_eq`, `UnitFile.text_reboot_eq` — both unit files, line by line;
* `Kernel.argumentsFor_eq` — the kernel command line;
* `MachineConfig.labelsFor_eq`, `Profile.realTimeEnabled_iff` — the labels, and when the kernel is
  the real-time one;
* `MachineConfig.carries_ofProfile` — and all of it in one place, with the files.
-/

/-! ### Services -/

namespace UnitFile

/-- The lines of the service that applies the tuning. -/
def tuningLines (housekeeping : String) : List String :=
  ["[Unit]",
    "Description=Preboot tuning patch",
    "Before=kubelet.service",
    "Before=reboot.service",
    "",
    "[Service]",
    "Environment=NON_ISOLATED_CPUS=" ++ housekeeping,
    "Type=oneshot",
    "RemainAfterExit=true",
    "ExecStart=/usr/local/bin/pre-boot-tuning.sh",
    "",
    "[Install]",
    "WantedBy=multi-user.target"]

/-- The lines of the service that reboots the node. -/
def rebootLines : List String :=
  ["[Unit]",
    "Description=Reboot initiated by pre-boot-tuning",
    "Wants=network-online.target",
    "After=network-online.target",
    "Before=kubelet.service",
    "",
    "[Service]",
    "Type=oneshot",
    "RemainAfterExit=true",
    "ExecStart=/usr/local/bin/reboot.sh",
    "",
    "[Install]",
    "WantedBy=multi-user.target"]

/-- **The service that applies the tuning**, line by line. -/
theorem text_preBootTuning_eq (housekeeping : String) :
    text (preBootTuning housekeeping) = unlines (tuningLines housekeeping) := by
  -- All but one line is the same for every profile.
  have henvironment : "Environment" ++ "=" ++ ("NON_ISOLATED_CPUS" ++ "=" ++ housekeeping) =
      "Environment=NON_ISOLATED_CPUS=" ++ housekeeping := by
    simp [← String.append_assoc]
  rw [text_eq_unlines, tuningLines, ← henvironment]
  rfl

/-- **The service that reboots the node**, line by line. -/
theorem text_reboot_eq : text reboot = unlines rebootLines := by
  rw [text_eq_unlines]
  rfl

end UnitFile

/-! ### The kernel -/

/-- The kernel arguments that a profile stands for: those of every node, then the isolated CPUs and
    the default page size, as far as they are set, and a size and a number for each kind of
    pages. -/
def Profile.kernelArguments (p : Profile) : List String :=
  ["nohz=on", "nosoftlockup", "nmi_watchdog=0", "audit=0", "mce=off", "irqaffinity=0",
      "skew_tick=1", "processor.max_cstate=1", "idle=poll", "intel_pstate=disable",
      "intel_idle.max_cstate=0", "intel_iommu=on", "iommu=pt"] ++
    p.spec.cpus.isolated.toList.map ("isolcpus=" ++ ·) ++
    (p.spec.hugePages.bind (·.defaultSize)).toList.map ("default_hugepagesz=" ++ ·) ++
    ((p.spec.hugePages.map (·.pages)).getD []).flatMap fun page =>
      ["hugepagesz=" ++ page.size, "hugepages=" ++ toString page.count.toInt]

/-- **The kernel command line** of a profile, spelled out. -/
theorem Kernel.argumentsFor_eq (p : Profile) : argumentsFor p = p.kernelArguments := by
  have hlist (value : Option String) (key : String) :
      (value.map (key ++ ·)).toList = value.toList.map (key ++ ·) := by
    cases value <;> rfl
  rw [argumentsFor, arguments, Profile.kernelArguments, hlist]
  rcases p.spec.hugePages with _ | ⟨defaultSize, pages⟩
  · simp [baseArguments]
  · simp only [Option.map_some, Option.getD_some, Option.bind_some, hugePageArguments, hlist,
      ← List.append_assoc]
    rfl

/-- The real-time kernel is asked for by an explicit wish only. -/
theorem Profile.realTimeEnabled_iff {p : Profile} :
    p.realTimeEnabled ↔ p.spec.realTimeKernel = some ⟨some true⟩ := by
  rw [Profile.realTimeEnabled]
  rcases p.spec.realTimeKernel with _ | ⟨_ | enabled⟩ <;> simp

/-- The flavor of a profile is the real-time kernel exactly if it asks for it. -/
theorem Kernel.Flavor.ofProfile_eq_realTime_iff {p : Profile} :
    ofProfile p = .realTime ↔ p.spec.realTimeKernel = some ⟨some true⟩ := by
  rw [← Profile.realTimeEnabled_iff, ofProfile]
  split <;> simp_all

/-! ### Labels -/

/-- The labels that a profile stands for: its own, or else the one of the default pool. -/
def Profile.effectiveLabels (p : Profile) : KeyMap String :=
  match p.spec.labels with
  | some labels => labels
  | none => .ofList [("machineconfiguration.openshift.io/role", "worker-performance")]

/-- A configuration has the labels that its profile stands for. -/
theorem MachineConfig.labelsFor_eq (p : Profile) : labelsFor p = p.effectiveLabels := by
  rw [labelsFor, Profile.effectiveLabels]
  cases p.spec.labels <;> rfl

/-! ### All of it -/

/-- A file installs a script: under its name, with its bytes, and for the owner alone. -/
structure Ignition.File.Installs (f : File) (script : String × List UInt8) : Prop where
  filesystem : f.filesystem = "root"
  path : f.path = "/usr/local/bin/" ++ script.1 ++ ".sh"
  source : DataUri.decode f.source = .ok script.2
  mode : f.mode = some 0o700

/-- The file that is made of a script installs it. -/
theorem Ignition.File.installs_ofScript (script : String × List UInt8) :
    (File.ofScript script.1 script.2).Installs script where
  filesystem := rfl
  path := Script.installPath_eq
  source := DataUri.decode_encode script.2
  mode := rfl

/-- A configuration carries what a profile asks for, with the bytes of two scripts. -/
structure MachineConfig.Carries (c : MachineConfig) (p : Profile) (tune boot : List UInt8) :
    Prop where
  apiVersion : c.apiVersion = "machineconfiguration.openshift.io/v1"
  kind : c.kind = "MachineConfig"
  name : c.name = "performance-" ++ p.name
  labels : c.labels = p.effectiveLabels
  kernelArguments : c.spec.kernelArguments = p.kernelArguments
  kernelType : c.spec.kernelType = .realTime ↔ p.spec.realTimeKernel = some ⟨some true⟩
  version : c.spec.config.version = "2.2.0"
  files : List.Forall₂ Ignition.File.Installs c.spec.config.files
    [("pre-boot-tuning", tune), ("reboot", boot)]
  services : c.spec.config.services =
    [⟨"pre-boot-tuning.service", some true,
        some (UnitFile.unlines (UnitFile.tuningLines p.spec.cpus.housekeeping))⟩,
      ⟨"reboot.service", some true, some (UnitFile.unlines UnitFile.rebootLines)⟩]

/-- **The configuration of a profile** carries all of what the profile asks for. -/
theorem MachineConfig.carries_ofProfile (p : Profile) (tune boot : List UInt8) :
    (ofProfile p [("pre-boot-tuning", tune), ("reboot", boot)]).Carries p tune boot where
  apiVersion := rfl
  kind := rfl
  name := rfl
  labels := labelsFor_eq p
  kernelArguments := Kernel.argumentsFor_eq p
  kernelType := Kernel.Flavor.ofProfile_eq_realTime_iff
  version := rfl
  files := by
    have hinstalls (script : String × List UInt8) := Ignition.File.installs_ofScript script
    exact .cons (hinstalls _) (.cons (hinstalls _) .nil)
  services := by
    rw [← UnitFile.text_preBootTuning_eq, ← UnitFile.text_reboot_eq]
    rfl

end MachineTuning
