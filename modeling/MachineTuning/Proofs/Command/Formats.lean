import MachineTuning.Proofs.Assets
import MachineTuning.Proofs.Command.Transcript
import MachineTuning.Proofs.MachineConfig.ReadBack
import MachineTuning.Proofs.Schema.NodeReadBack

namespace MachineTuning

/-!
# Formats — a configuration is the same in YAML and in JSON

A configuration is printed as a YAML document or as JSON.  Its texts come from users and may look
like anything: each is written in a style in which YAML reads it as the text that it is.

* `MachineConfig.read_configText` — every configuration is read from both of its texts;
* `Command.render_denotes` — so both formats of a rendered profile denote what was built for it.
-/

namespace MachineConfig

/-- Every configuration is read from the nodes that are printed for it. -/
theorem readsNodes_schema : schema.ReadsNodes :=
  isRegular_schema.readsNodes

/-- **A configuration is read from its texts**: by YAML from the document that is printed by
    default, and by JSON from the other one. -/
theorem read_configText (c : MachineConfig) :
    Yaml.read schema (Command.configText .yaml c) = .ok c ∧
      schema.ofText? (Command.configText .json c) = some c := by
  refine ⟨Schema.read_print readsNodes_schema ?_, ofText?_pretty_line c⟩
  -- Without members there would be brackets to read, but the version is always written.
  rw [Fields.toMembers_cons Schema.neverNull_text]
  exact List.cons_ne_nil _ _

end MachineConfig

namespace Command

variable {fs : FileSystem} {p : Profile} {assets : String} {c : MachineConfig}

/-- **Both formats denote the same configuration.**  Where one can be built for a profile, it is
    rendered in either format.  YAML reads it from what is printed in the one, JSON from what is
    printed in the other, whatever its texts look like. -/
theorem render_denotes (h : MachineConfig.build fs assets p = .ok c) (profile : String) :
    ∃ yaml json,
      (Action.render profile assets .yaml).transcriptFor fs p = ⟨yaml, none⟩ ∧
      (Action.render profile assets .json).transcriptFor fs p = ⟨json, none⟩ ∧
      Yaml.read MachineConfig.schema yaml = .ok c ∧
      MachineConfig.schema.ofText? json = some c := by
  obtain ⟨hyaml, hjson⟩ := MachineConfig.read_configText c
  exact ⟨_, _, Action.transcriptFor_render_of_build h profile .yaml,
    Action.transcriptFor_render_of_build h profile .json, hyaml, hjson⟩

/-- A profile whose name looks like no name, and whose processors like an entry and a comment. -/
theorem render_denotes_lookalikes :
    let fs : FileSystem := fun _ => .ok []
    let p : Profile := .new "null" "- 1: #\n"
    ∃ c, MachineConfig.build fs "assets" p = .ok c ∧
      ∃ yaml, (Action.render "p.yaml" "assets" .yaml).transcriptFor fs p = ⟨yaml, none⟩ ∧
        Yaml.read MachineConfig.schema yaml = .ok c := by
  intro fs p
  have hscripts : ∀ script ∈ Script.catalog, ∃ content,
      fs (Assets.scriptPath "assets" script) = .ok content := fun _ _ => ⟨[], rfl⟩
  obtain ⟨loaded, hloaded⟩ := Assets.exists_loadAll_iff.2 hscripts
  have hbuild : MachineConfig.build fs "assets" p = .ok (.ofProfile p loaded) :=
    MachineConfig.build_eq_ok_iff.2 ⟨loaded, hloaded, rfl⟩
  obtain ⟨yaml, json, hyaml, -, hread, -⟩ := render_denotes hbuild "p.yaml"
  exact ⟨_, hbuild, yaml, hyaml, hread⟩

end Command

end MachineTuning
