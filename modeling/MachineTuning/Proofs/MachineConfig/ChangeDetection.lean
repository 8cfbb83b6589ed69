import MachineTuning.Proofs.Assets
import MachineTuning.Proofs.DataUri
import MachineTuning.Proofs.Kernel.Reader
import MachineTuning.Proofs.MachineConfig.Content
import MachineTuning.Proofs.MachineConfig.ReadBack
import MachineTuning.Proofs.UnitFile.Reader

namespace MachineTuning

/-!
# Change detection — when two configurations have the same text

An agent applies a configuration again when its text has changed.  `Profile.SameTuning` names all
that two profiles must share for that not to happen; together with the bytes of the scripts it
decides whether the texts are the same.

* `MachineConfig.ofProfile_eq_iff` — the configurations of two profiles are equal exactly if the
  profiles ask for the same and the scripts are the same;
* `MachineConfig.compact_build_eq_iff` — and so are the texts of two configurations that were
  built.
-/

/-- Two profiles ask for the same tuning.  What is left out in one may be spelled out in the
    other: the default labels, a real-time kernel that is not wanted, huge pages without any. -/
structure Profile.SameTuning (p q : Profile) : Prop where
  name : p.name = q.name
  labels : p.effectiveLabels = q.effectiveLabels
  housekeeping : p.spec.cpus.housekeeping = q.spec.cpus.housekeeping
  isolated : p.spec.cpus.isolated = q.spec.cpus.isolated
  defaultSize : p.spec.hugePages.bind (·.defaultSize) = q.spec.hugePages.bind (·.defaultSize)
  pages : (p.spec.hugePages.map (·.pages)).getD [] = (q.spec.hugePages.map (·.pages)).getD []
  realTime : p.spec.realTimeKernel = some ⟨some true⟩ ↔ q.spec.realTimeKernel = some ⟨some true⟩

/-! ### The parts of a configuration -/

namespace Kernel

/-- Profiles have one command line exactly if they set the same on it. -/
theorem argumentsFor_eq_iff {p q : Profile} : argumentsFor p = argumentsFor q ↔
    p.spec.cpus.isolated = q.spec.cpus.isolated ∧
      p.spec.hugePages.bind (·.defaultSize) = q.spec.hugePages.bind (·.defaultSize) ∧
      (p.spec.hugePages.map (·.pages)).getD [] = (q.spec.hugePages.map (·.pages)).getD [] := by
  rw [argumentsFor, argumentsFor, arguments_eq_iff, settings, settings, Settings.mk.injEq]

/-- Profiles have one kernel flavor exactly if both ask for the real-time kernel or neither does. -/
theorem Flavor.ofProfile_eq_iff {p q : Profile} : Flavor.ofProfile p = Flavor.ofProfile q ↔
    (p.spec.realTimeKernel = some ⟨some true⟩ ↔ q.spec.realTimeKernel = some ⟨some true⟩) := by
  rw [← Profile.realTimeEnabled_iff, ← Profile.realTimeEnabled_iff, Flavor.ofProfile,
    Flavor.ofProfile]
  cases p.realTimeEnabled <;> cases q.realTimeEnabled <;> decide

end Kernel

namespace Ignition

/-- Installed scripts differ in their names or their bytes. -/
theorem File.ofScript_injective :
    Function.Injective fun s : String × List UInt8 => File.ofScript s.1 s.2 := by
  rintro ⟨script, content⟩ ⟨script', content'⟩ h
  obtain ⟨-, hpath, hsource, -⟩ := File.mk.inj h
  have hscript : script = script' := Script.installPath_inj.1 hpath
  have hcontent : content = content' := DataUri.encode_injective hsource
  rw [hscript, hcontent]

/-- The services that carry out the tuning depend on the CPUs for housekeeping. -/
theorem Service.ofDirectives_tuning_injective {housekeeping housekeeping' : String}
    (h : (UnitFile.tuning housekeeping).map (fun u => Service.ofDirectives u.1 u.2) =
      (UnitFile.tuning housekeeping').map fun u => Service.ofDirectives u.1 u.2) :
    housekeeping = housekeeping' := by
  -- The first service names the CPUs; the second one is always the same.
  obtain ⟨hfirst, -⟩ := List.cons.inj h
  obtain ⟨-, -, hcontents⟩ := Service.mk.inj hfirst
  exact UnitFile.text_preBootTuning_injective (Option.some.inj hcontents)

/-- An ignition document holds the scripts and the CPUs for housekeeping, and no more. -/
theorem Document.forProfile_eq_iff {p q : Profile} {scripts scripts' : List (String × List UInt8)} :
    Document.forProfile p scripts = Document.forProfile q scripts' ↔
      scripts = scripts' ∧ p.spec.cpus.housekeeping = q.spec.cpus.housekeeping := by
  constructor
  · intro h
    obtain ⟨-, hfiles, hservices⟩ := Document.mk.inj h
    exact ⟨List.map_injective_iff.2 File.ofScript_injective hfiles,
      Service.ofDirectives_tuning_injective hservices⟩
  · rintro ⟨rfl, hcpus⟩
    rw [Document.forProfile, Document.forProfile, hcpus]

end Ignition

namespace MachineConfig

/-- Components of one kind have the names of different profiles. -/
theorem componentName_injective {base name name' : String}
    (h : componentName name base = componentName name' base) : name = name' :=
  (String.append_right_inj (base ++ "-")).1 h

/-- **The configuration of a profile** is decided by what the profile asks for and the scripts. -/
theorem ofProfile_eq_iff {p q : Profile} {scripts scripts' : List (String × List UInt8)} :
    ofProfile p scripts = ofProfile q scripts' ↔ p.SameTuning q ∧ scripts = scripts' := by
  constructor
  · intro h
    obtain ⟨-, -, hname, hlabels, hspec⟩ := MachineConfig.mk.inj h
    obtain ⟨hconfig, harguments, hflavor⟩ := Spec.mk.inj hspec
    -- Each part of the configuration gives back what it was made of.
    obtain ⟨hscripts, hhousekeeping⟩ := Ignition.Document.forProfile_eq_iff.1 hconfig
    obtain ⟨hisolated, hdefaultSize, hpages⟩ := Kernel.argumentsFor_eq_iff.1 harguments
    rw [labelsFor_eq, labelsFor_eq] at hlabels
    exact ⟨⟨componentName_injective hname, hlabels, hhousekeeping, hisolated, hdefaultSize, hpages,
      Kernel.Flavor.ofProfile_eq_iff.1 hflavor⟩, hscripts⟩
  · rintro ⟨h, rfl⟩
    have hconfig := Ignition.Document.forProfile_eq_iff.2 ⟨rfl (a := scripts), h.housekeeping⟩
    have harguments := Kernel.argumentsFor_eq_iff.2 ⟨h.isolated, h.defaultSize, h.pages⟩
    rw [ofProfile, ofProfile, h.name, labelsFor_eq, labelsFor_eq, h.labels, hconfig, harguments,
      Kernel.Flavor.ofProfile_eq_iff.2 h.realTime]

/-- **Change detection is faithful.**  Two configurations that were built have the same text iff
    their profiles ask for the same tuning and both scripts hold the same bytes. -/
theorem compact_build_eq_iff {fs₁ fs₂ : FileSystem} {directory₁ directory₂ : String}
    {p₁ p₂ : Profile} {c₁ c₂ : MachineConfig} (h₁ : build fs₁ directory₁ p₁ = .ok c₁)
    (h₂ : build fs₂ directory₂ p₂ = .ok c₂) :
    (schema.toJson c₁).compact = (schema.toJson c₂).compact ↔
      p₁.SameTuning p₂ ∧ ∀ script ∈ ["pre-boot-tuning", "reboot"], ∃ content,
        fs₁ (Assets.place directory₁ script) = .ok content ∧
          fs₂ (Assets.place directory₂ script) = .ok content := by
  obtain ⟨loaded₁, hloaded₁, rfl⟩ := build_eq_ok_iff.1 h₁
  obtain ⟨loaded₂, hloaded₂, rfl⟩ := build_eq_ok_iff.1 h₂
  -- From the texts to the configurations, and from these to the profiles and the scripts.
  rw [Schema.compact_toJson_inj readsBack_schema, ofProfile_eq_iff,
    Assets.loaded_eq_iff hloaded₁ hloaded₂]
  refine and_congr_right fun _ => forall₂_congr fun script hscript => ?_
  rw [Assets.scriptPath_of_mem_catalog script hscript,
    Assets.scriptPath_of_mem_catalog script hscript]

/-- A profile that spells out what another one leaves open, with scripts of the same content
    elsewhere, gives the same text. -/
theorem compact_build_spelledOut :
    let p : Profile := .new "node" "0-1\n[Service]"
    let q : Profile := (p.withHugePages {}).withRealTimeKernel (some false)
    let here : FileSystem := fun _ => .ok [0xff]
    let there : FileSystem := fun path => if path = "notes" then .error .notFound else .ok [0xff]
    ∃ c₁ c₂, build here "" p = .ok c₁ ∧ build there "assets" q = .ok c₂ ∧
      (schema.toJson c₁).compact = (schema.toJson c₂).compact := by
  intro p q here there
  let scripts : List (String × List UInt8) :=
    [(Script.preBootTuning, [0xff]), (Script.reboot, [0xff])]
  have hp : build here "" p = .ok (ofProfile p scripts) := rfl
  have hq : build there "assets" q = .ok (ofProfile q scripts) := rfl
  -- Asking for nothing and not asking are the same tuning.
  refine ⟨_, _, hp, hq,
    (compact_build_eq_iff hp hq).2 ⟨⟨rfl, rfl, rfl, rfl, rfl, rfl, by decide⟩, ?_⟩⟩
  intro script hscript
  refine ⟨[0xff], rfl, ?_⟩
  revert script
  decide

end MachineConfig

end MachineTuning
