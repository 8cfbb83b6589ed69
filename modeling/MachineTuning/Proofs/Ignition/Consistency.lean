import Mathlib.Logic.Relation
import MachineTuning.Proofs.Assets
import MachineTuning.Proofs.DataUri
import MachineTuning.Proofs.MachineConfig.ReadBack
import MachineTuning.Proofs.UnitFile.Reader

namespace MachineTuning

/-!
# Ignition documents — the parts of a built document fit together

Files, services and their order are put into a document one by one.  `Document.IsConsistent` says
how they must fit for a node to come up: each service starts the one file that holds its script,
waits for no service that waits for it, and is told the CPUs of the profile.

* `Ignition.isConsistent_forProfile` — the document of a profile is consistent if no line break
  stands among its CPUs;
* `Ignition.isConsistent_build` — it is built whenever the scripts can be read, and stays
  consistent when it is read from its text.
-/

/-! ### The tuning services -/

namespace UnitFile

variable {housekeeping : String}

/-- Every service runs a script of the catalog. -/
theorem mem_catalog_of_mem_tuning {u : String × List Directive} (h : u ∈ tuning housekeeping) :
    u.1 ∈ Script.catalog := by
  have hscripts : (tuning housekeeping).map (·.1) = Script.catalog := rfl
  exact hscripts ▸ List.mem_map_of_mem h

/-- Every service starts its own script. -/
theorem execStart_of_mem_tuning {u : String × List Directive} (h : u ∈ tuning housekeeping) :
    u.2.filter (·.key = "ExecStart") = [⟨"Service", "ExecStart", Script.installPath u.1⟩] := by
  rcases List.mem_cons.1 h with rfl | h
  · rfl
  · rw [List.mem_singleton.1 h]
    rfl

/-- Without a line break among the CPUs, every service reads back. -/
theorem read_text_of_mem_tuning (hcpus : '\n' ∉ housekeeping.toList) {u : String × List Directive}
    (h : u ∈ tuning housekeeping) : read (text u.2) = u.2 := by
  rcases List.mem_cons.1 h with rfl | h
  · exact (read_text_preBootTuning_iff housekeeping).2 hcpus
  · rw [List.mem_singleton.1 h]
    exact read_text_reboot

/-- Which service runs before which. -/
def order : List (String × String) :=
  [("pre-boot-tuning.service", "kubelet.service"), ("pre-boot-tuning.service", "reboot.service"),
    ("reboot.service", "kubelet.service")]

/-- The directives of both services say no more about the order than is listed. -/
theorem flatMap_tuning_eq_order (housekeeping : String) :
    (tuning housekeeping).flatMap (fun u => (u.2.filter (·.key = "Before")).map fun d =>
      (Script.serviceName u.1, d.value)) = order := rfl

/-- The place of a service in the order. -/
def rank (name : String) : Nat :=
  if name = "kubelet.service" then 2 else if name = "reboot.service" then 1 else 0

/-- Each listed service has a lower rank than the one that it precedes. -/
theorem rank_lt_of_mem_order : ∀ e ∈ order, rank e.1 < rank e.2 := by decide

end UnitFile

namespace Ignition

/-! ### What a document says -/

/-- The directives that a reader finds in a service under a key. -/
def Service.under (s : Service) (key : String) : List Directive :=
  (UnitFile.read (s.contents.getD "")).filter (·.key = key)

namespace Document

/-- A service of the document is to run before another one. -/
def Before (d : Document) (earlier later : String) : Prop :=
  ∃ s ∈ d.services, s.name = earlier ∧ ∃ directive ∈ s.under "Before", directive.value = later

/-- A service starts one program: the only file at its path, which the owner alone may use and
    which holds the bytes of the script that the service is named after. -/
def RunsScript (fs : FileSystem) (directory : String) (d : Document) (s : Service) : Prop :=
  ∃ file script content,
    s.under "ExecStart" = [⟨"Service", "ExecStart", file.path⟩] ∧
    d.files.filter (·.path = file.path) = [file] ∧ file.mode = some 0o700 ∧
    script ∈ Script.catalog ∧ Script.serviceName script = s.name ∧
    fs (Assets.scriptPath directory script) = .ok content ∧
    DataUri.decode file.source = .ok content

/-- The parts of a document fit together, for scripts from an asset directory and these CPUs for
    housekeeping. -/
structure IsConsistent (fs : FileSystem) (directory housekeeping : String) (d : Document) :
    Prop where
  runsScript : ∀ s ∈ d.services, d.RunsScript fs directory s
  before_known : ∀ s ∈ d.services, ∀ directive ∈ s.under "Before",
    directive.value = "kubelet.service" ∨
      ∃ other ∈ d.services, other.name ≠ s.name ∧ other.name = directive.value
  before_acyclic : ∀ name, ¬Relation.TransGen d.Before name name
  tuning_before_reboot : d.Before "pre-boot-tuning.service" "reboot.service"
  reboot_before_kubelet : d.Before "reboot.service" "kubelet.service"
  environment : ∃ s, d.services.filter (·.name = "pre-boot-tuning.service") = [s] ∧
    s.under "Environment" = [⟨"Service", "Environment", "NON_ISOLATED_CPUS=" ++ housekeeping⟩]

end Document

/-! ### The document of a profile -/

section ForProfile

variable {fs : FileSystem} {directory : String} {p : Profile}
  {scripts : List (String × List UInt8)}

/-- A reader finds in a service the directives that it was made of. -/
theorem under_ofDirectives (hcpus : '\n' ∉ p.spec.cpus.housekeeping.toList)
    {u : String × List Directive} (hu : u ∈ UnitFile.tuning p.spec.cpus.housekeeping)
    (key : String) : (Service.ofDirectives u.1 u.2).under key = u.2.filter (·.key = key) := by
  rw [Service.under]
  show (UnitFile.read (UnitFile.text u.2)).filter _ = _
  rw [UnitFile.read_text_of_mem_tuning hcpus hu]

/-- Among the files of scripts with different names, each script has its own. -/
theorem filter_ofScript {names : List String}
    (h : List.Forall₂ (Assets.IsLoaded fs directory) names scripts) (hnames : names.Nodup)
    {script : String} (hscript : script ∈ names) :
    ∃ content, fs (Assets.scriptPath directory script) = .ok content ∧
      (scripts.map fun s => File.ofScript s.1 s.2).filter (·.path = Script.installPath script) =
        [File.ofScript script content] := by
  induction h with
  | nil => cases hscript
  | @cons name entry names scripts hentry hrest ih =>
    obtain ⟨hname, hothers⟩ := List.nodup_cons.1 hnames
    obtain ⟨rfl, hread⟩ := hentry
    have hpath (s : String × List UInt8) :
        (File.ofScript s.1 s.2).path = Script.installPath script ↔ s.1 = script :=
      Script.installPath_inj
    -- Either the script comes first and none of the others shares its path, or it comes later.
    rcases List.mem_cons.1 hscript with rfl | hscript
    · refine ⟨entry.2, hread, ?_⟩
      rw [List.map_cons, List.filter_cons_of_pos (by simp [hpath]), List.filter_eq_nil_iff.2]
      intro file hfile
      obtain ⟨s, hs, rfl⟩ := List.mem_map.1 hfile
      have hne : s.1 ≠ entry.1 := fun heq =>
        hname (heq ▸ Assets.map_fst_of_isLoaded hrest ▸ List.mem_map_of_mem hs)
      simpa [hpath] using hne
    · have hne : entry.1 ≠ script := fun heq => hname (heq ▸ hscript)
      rw [List.map_cons, List.filter_cons_of_neg (by simpa [hpath] using hne)]
      exact ih hothers hscript

/-- In the document of a profile the services run in the order that is listed. -/
theorem before_forProfile_iff (hcpus : '\n' ∉ p.spec.cpus.housekeeping.toList)
    {earlier later : String} : (Document.forProfile p scripts).Before earlier later ↔
      (earlier, later) ∈ UnitFile.order := by
  rw [← UnitFile.flatMap_tuning_eq_order p.spec.cpus.housekeeping, List.mem_flatMap]
  -- Both sides go through the same directives, read from the document or taken from the tables.
  constructor
  · rintro ⟨s, hs, rfl, directive, hdirective, rfl⟩
    obtain ⟨u, hu, rfl⟩ := List.mem_map.1 hs
    rw [under_ofDirectives hcpus hu] at hdirective
    exact ⟨u, hu, List.mem_map_of_mem hdirective⟩
  · rintro ⟨u, hu, hmem⟩
    obtain ⟨directive, hdirective, heq⟩ := List.mem_map.1 hmem
    obtain ⟨rfl, rfl⟩ := Prod.mk.inj heq
    refine ⟨_, List.mem_map_of_mem hu, rfl, directive, ?_, rfl⟩
    rwa [under_ofDirectives hcpus hu]

/-- Whatever runs before another service, directly or not, has a lower rank. -/
theorem rank_lt_of_before (hcpus : '\n' ∉ p.spec.cpus.housekeeping.toList)
    {earlier later : String}
    (h : Relation.TransGen (Document.forProfile p scripts).Before earlier later) :
    UnitFile.rank earlier < UnitFile.rank later := by
  -- Every step goes up in rank, so a chain of steps does, and none comes back.
  have hstep {a b : String} (hab : (Document.forProfile p scripts).Before a b) :
      UnitFile.rank a < UnitFile.rank b :=
    UnitFile.rank_lt_of_mem_order (a, b) ((before_forProfile_iff hcpus).1 hab)
  induction h with
  | single hab => exact hstep hab
  | tail _ hbc ih => exact Nat.lt_trans ih (hstep hbc)

/-- Every service starts the file of its script. -/
theorem runsScript_forProfile (hcpus : '\n' ∉ p.spec.cpus.housekeeping.toList)
    (hscripts : Assets.loadAll fs directory = .ok scripts) {s : Service}
    (hs : s ∈ (Document.forProfile p scripts).services) :
    (Document.forProfile p scripts).RunsScript fs directory s := by
  obtain ⟨u, hu, rfl⟩ := List.mem_map.1 hs
  have hcatalog := UnitFile.mem_catalog_of_mem_tuning hu
  obtain ⟨content, hread, hfiles⟩ :=
    filter_ofScript (Assets.loadAll_eq_ok_iff.1 hscripts) (by decide) hcatalog
  refine ⟨File.ofScript u.1 content, u.1, content, ?_, hfiles, rfl, hcatalog, rfl, hread,
    DataUri.decode_encode content⟩
  rw [under_ofDirectives hcpus hu, UnitFile.execStart_of_mem_tuning hu]
  rfl

/-- **The document of a profile is consistent** if no line break stands among its CPUs. -/
theorem isConsistent_forProfile (hcpus : '\n' ∉ p.spec.cpus.housekeeping.toList)
    (hscripts : Assets.loadAll fs directory = .ok scripts) :
    (Document.forProfile p scripts).IsConsistent fs directory p.spec.cpus.housekeeping where
  runsScript _ hs := runsScript_forProfile hcpus hscripts hs
  before_known := by
    intro s hs directive hdirective
    have hbefore : (Document.forProfile p scripts).Before s.name directive.value :=
      ⟨s, hs, rfl, directive, hdirective, rfl⟩
    rw [before_forProfile_iff hcpus] at hbefore
    have hreboot : (Script.reboot, UnitFile.reboot) ∈ UnitFile.tuning p.spec.cpus.housekeeping :=
      List.mem_cons_of_mem _ List.mem_cons_self
    simp only [UnitFile.order, List.mem_cons, List.not_mem_nil, or_false, Prod.mk.injEq] at hbefore
    -- Of the services here only the one that restarts the node comes later than another one.
    rcases hbefore with ⟨-, hvalue⟩ | ⟨hname, hvalue⟩ | ⟨-, hvalue⟩
    · exact .inl hvalue
    · refine .inr ⟨_, List.mem_map_of_mem hreboot, ?_, hvalue.symm⟩
      rw [hname]
      exact (by decide : "reboot.service" ≠ "pre-boot-tuning.service")
    · exact .inl hvalue
  before_acyclic _ hcycle := Nat.lt_irrefl _ (rank_lt_of_before hcpus hcycle)
  tuning_before_reboot := (before_forProfile_iff hcpus).2 (by decide)
  reboot_before_kubelet := (before_forProfile_iff hcpus).2 (by decide)
  environment := by
    refine ⟨Service.ofDirectives Script.preBootTuning _, rfl, ?_⟩
    exact under_ofDirectives (u := (Script.preBootTuning, _)) hcpus List.mem_cons_self "Environment"

end ForProfile

/-! ### Built documents and their texts -/

/-- **Built documents are consistent.**  Without a line break among the CPUs, and with every
    script readable, a configuration is built whose ignition document is consistent, and so is the
    document that is read from its own text or from that of the configuration, in either
    layout. -/
theorem isConsistent_build {fs : FileSystem} {directory : String} {p : Profile}
    (hcpus : '\n' ∉ p.spec.cpus.housekeeping.toList)
    (hreadable : ∀ script ∈ Script.catalog, ∃ content,
      fs (Assets.scriptPath directory script) = .ok content) :
    ∃ c, MachineConfig.build fs directory p = .ok c ∧
      c.spec.config.IsConsistent fs directory p.spec.cpus.housekeeping ∧
      (∀ text ∈ [(Document.schema.toJson c.spec.config).compact,
          (Document.schema.toJson c.spec.config).pretty],
        ∃ d, Document.schema.ofText? text = some d ∧
          d.IsConsistent fs directory p.spec.cpus.housekeeping) ∧
      ∀ text ∈ [(MachineConfig.schema.toJson c).compact, (MachineConfig.schema.toJson c).pretty],
        ∃ c', MachineConfig.schema.ofText? text = some c' ∧
          c'.spec.config.IsConsistent fs directory p.spec.cpus.housekeeping := by
  obtain ⟨scripts, hscripts⟩ := Assets.exists_loadAll_iff.2 hreadable
  have hbuild : MachineConfig.build fs directory p = .ok (.ofProfile p scripts) :=
    MachineConfig.build_eq_ok_iff.2 ⟨scripts, hscripts, rfl⟩
  -- The same document stands in all five places, so that its consistency is shown once.
  have hconsistent := isConsistent_forProfile (p := p) hcpus hscripts
  refine ⟨.ofProfile p scripts, hbuild, hconsistent, ?_, ?_⟩
  · intro text htext
    refine ⟨_, ?_, hconsistent⟩
    rcases List.mem_cons.1 htext with rfl | htext
    · exact Schema.ofText?_compact Document.readsBack_schema _
    · rw [List.mem_singleton.1 htext]
      exact Schema.ofText?_pretty Document.readsBack_schema _
  · intro text htext
    refine ⟨.ofProfile p scripts, ?_, hconsistent⟩
    rcases List.mem_cons.1 htext with rfl | htext
    · exact Schema.ofText?_compact MachineConfig.readsBack_schema _
    · rw [List.mem_singleton.1 htext]
      exact Schema.ofText?_pretty MachineConfig.readsBack_schema _

/-- CPUs that look like a directive, and scripts of bytes that are no text. -/
theorem isConsistent_build_binary :
    let p : Profile := .new "node" "0 [Install] ExecStart=1"
    let fs : FileSystem := fun _ => .ok [0x00, 0xff]
    ∃ c, MachineConfig.build fs "assets" p = .ok c ∧
      c.spec.config.IsConsistent fs "assets" "0 [Install] ExecStart=1" := by
  intro p fs
  have hreadable : ∀ script ∈ Script.catalog, ∃ content,
      fs (Assets.scriptPath "assets" script) = .ok content := fun _ _ => ⟨[0x00, 0xff], rfl⟩
  obtain ⟨c, hbuild, hconsistent, -⟩ := isConsistent_build (p := p) (by decide) hreadable
  exact ⟨c, hbuild, hconsistent⟩

end Ignition

end MachineTuning
