import MachineTuning.Proofs.Assets
import MachineTuning.Proofs.UnitFile.Stream

namespace MachineTuning

/-!
# Building — all of a configuration, or the script that is to blame

On the way to a configuration scripts are read and unit files are rendered, and either may fail.

* `MachineConfig.assembled` — a configuration put together step by step, each with its failures;
* `MachineConfig.assembled_eq_build` — rendering never fails, however its failures are reported;
* `MachineConfig.build_whole_or_blamed` — so the scripts alone decide whether there is a
  configuration, and the first that cannot be read is all that a failure tells.
-/

/-- A service with its unit file as it is rendered.  `report` says how a fault is reported. -/
def Ignition.Service.assembled (report : UnitFile.Fault → Failure) (script : String)
    (directives : List Directive) : Except Failure Ignition.Service := do
  let text ← (UnitFile.render directives).mapError report
  return ⟨Script.serviceName script, some true, some text⟩

/-- A configuration put together step by step: the scripts are loaded, then the unit files of the
    services are rendered. -/
def MachineConfig.assembled (report : UnitFile.Fault → Failure) (fs : FileSystem)
    (directory : String) (p : Profile) : Except Failure MachineConfig := do
  let scripts ← Assets.loadAll fs directory
  let services ← (UnitFile.tuning p.spec.cpus.housekeeping).mapM fun u =>
    Ignition.Service.assembled report u.1 u.2
  let files := scripts.map fun s => Ignition.File.ofScript s.1 s.2
  return ⟨objectVersion, objectKind, componentName p.name componentBase, labelsFor p,
    ⟨Ignition.version, files, services⟩, Kernel.argumentsFor p, .ofProfile p⟩

variable (report : UnitFile.Fault → Failure) (fs : FileSystem) (directory : String) (p : Profile)

/-- A service is assembled whatever its directives are. -/
theorem Ignition.Service.assembled_eq_ok (script : String) (directives : List Directive) :
    assembled report script directives = .ok (ofDirectives script directives) := by
  rw [assembled, UnitFile.render_eq_ok]
  rfl

/-- **Rendering never fails**, so that a configuration is built at once. -/
theorem MachineConfig.assembled_eq_build :
    assembled report fs directory p = build fs directory p := by
  have hservices := Outcome.mapM_eq_ok (l := UnitFile.tuning p.spec.cpus.housekeeping)
    fun u _ => Ignition.Service.assembled_eq_ok report u.1 u.2
  rw [assembled, build, hservices]
  rfl

/-- **All of a configuration, or the script that is to blame.**  A configuration is built step by
    step, whatever reports there are for faults of rendering.  There is one exactly if both scripts
    can be read at their paths.  Otherwise the first that cannot be read is reported, with its path
    and the reason, and it is the same for every profile. -/
theorem MachineConfig.build_whole_or_blamed (fs : FileSystem) (directory : String) (p : Profile) :
    (∀ report, assembled report fs directory p = build fs directory p) ∧
    ((∃ c, build fs directory p = .ok c) ↔ ∀ script ∈ ["pre-boot-tuning", "reboot"],
      ∃ content, fs (Assets.place directory script) = .ok content) ∧
    (∀ failure, build fs directory p = .error failure ↔ ∃ before script after cause,
      ["pre-boot-tuning", "reboot"] = before ++ script :: after ∧
      (∀ earlier ∈ before, ∃ content, fs (Assets.place directory earlier) = .ok content) ∧
      fs (Assets.place directory script) = .error cause ∧
      failure = .asset script (Assets.place directory script) cause) ∧
    ∀ p' failure,
      build fs directory p' = .error failure ↔ build fs directory p = .error failure := by
  refine ⟨fun report => assembled_eq_build report fs directory p, ?_, fun failure => ?_, ?_⟩
  · rw [Assets.exists_build_iff, Assets.exists_loadAll_iff, Assets.forall_readable_catalog_iff]
  · rw [build_eq_error_iff, Assets.loadAll_eq_error_iff, Assets.isBlamed_catalog_iff]
  · -- The profile takes no part in reading the scripts.
    intro p' failure
    rw [build_eq_error_iff, build_eq_error_iff]

end MachineTuning
