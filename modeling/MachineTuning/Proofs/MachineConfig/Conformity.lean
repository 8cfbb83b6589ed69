import MachineTuning.MachineConfig
import MachineTuning.Proofs.Schema.Conformity

namespace MachineTuning

/-!
# Machine configurations — which JSON values spell them

A value spells a configuration if its parts spell the parts of the configuration, down to texts,
flags and permission bits.  Lists, labels and the kernel flavor may be left out, but what stands in
their place must not be null; the parts of a service and the permission bits of a file may be null
as well.

* `MachineConfig.IsSpelledBy` and its like for the parts — what a value must look like;
* `MachineConfig.ofJson_eq_ok_iff_isSpelledBy` — a value is read as a configuration exactly if it
  spells it.
-/

open Json (IsText IsFlag IsUInt32 IsList IsLabels IsChoice IsRecord Required Defaulted Optional)

/-! ### What a value must look like -/

namespace Ignition

/-- A record whose only part is a text. -/
def IsOneText (key : String) (v : Json) (s : String) : Prop :=
  v.IsRecord [key] 1 fun part => Required IsText (part key) s

/-- A record whose only part is a list, which may be left out. -/
def IsOneList {α : Type} (key : String) (P : Json → α → Prop) (v : Json) (as : List α) : Prop :=
  v.IsRecord [key] 0 fun part => Defaulted [] (IsList P) (part key) as

/-- The parts of a file. -/
structure File.HasParts (part : String → Option Json) (file : File) : Prop where
  filesystem : Required IsText (part "filesystem") file.filesystem
  path : Required IsText (part "path") file.path
  source : Required (IsOneText "source") (part "contents") file.source
  mode : Optional IsUInt32 (part "mode") file.mode

/-- A value spells a file: its content stands in an object of its own, and the mode may be missing.
    -/
def File.IsSpelledBy (v : Json) (file : File) : Prop :=
  v.IsRecord ["filesystem", "path", "contents", "mode"] 3 (File.HasParts · file)

/-- The parts of a service. -/
structure Service.HasParts (part : String → Option Json) (service : Service) : Prop where
  name : Required IsText (part "name") service.name
  enabled : Optional IsFlag (part "enabled") service.enabled
  contents : Optional IsText (part "contents") service.contents

/-- A value spells a service: everything but its name may be missing. -/
def Service.IsSpelledBy (v : Json) (service : Service) : Prop :=
  v.IsRecord ["name", "enabled", "contents"] 1 (Service.HasParts · service)

/-- The parts of an ignition document. -/
structure Document.HasParts (part : String → Option Json) (document : Document) : Prop where
  version : Required (IsOneText "version") (part "ignition") document.version
  files : Required (IsOneList "files" File.IsSpelledBy) (part "storage") document.files
  services : Required (IsOneList "units" Service.IsSpelledBy) (part "systemd") document.services

/-- A value spells an ignition document: the three parts are there, and the lists in them may be
    missing. -/
def Document.IsSpelledBy (v : Json) (document : Document) : Prop :=
  v.IsRecord ["ignition", "storage", "systemd"] 3 (Document.HasParts · document)

end Ignition

namespace MachineConfig

/-- The word for a kernel flavor. -/
def flavorWord : Kernel.Flavor → String
  | .stock => "default"
  | .realTime => "realtime"

/-- A kernel flavor is spelled by its word. -/
def FlavorIsSpelledBy (v : Json) (flavor : Kernel.Flavor) : Prop :=
  v.IsChoice flavorWord flavor

/-- The parts of the content of a configuration. -/
structure Spec.HasParts (part : String → Option Json) (spec : Spec) : Prop where
  config : Required Ignition.Document.IsSpelledBy (part "config") spec.config
  kernelArguments : Defaulted [] (IsList IsText) (part "kernelArguments") spec.kernelArguments
  kernelType : Defaulted .stock FlavorIsSpelledBy (part "kernelType") spec.kernelType

/-- A value spells the content of a configuration: without a list there are no kernel arguments, and
    without a kernel type it is the default one. -/
def Spec.IsSpelledBy (v : Json) (spec : Spec) : Prop :=
  v.IsRecord ["config", "kernelArguments", "kernelType"] 1 (Spec.HasParts · spec)

/-- The parts of the identity of a configuration: its name and its labels. -/
structure IdentityHasParts (part : String → Option Json) (identity : String × KeyMap String) :
    Prop where
  name : Required IsText (part "name") identity.1
  labels : Defaulted .empty IsLabels (part "labels") identity.2

/-- A value spells a name and labels, and without labels there are none. -/
def IdentityIsSpelledBy (v : Json) (identity : String × KeyMap String) : Prop :=
  v.IsRecord ["name", "labels"] 1 (IdentityHasParts · identity)

/-- The parts of a configuration. -/
structure HasParts (part : String → Option Json) (c : MachineConfig) : Prop where
  apiVersion : Required IsText (part "apiVersion") c.apiVersion
  kind : Required IsText (part "kind") c.kind
  identity : Required IdentityIsSpelledBy (part "metadata") (c.name, c.labels)
  spec : Required Spec.IsSpelledBy (part "spec") c.spec

/-- A value spells a machine configuration, of which no part may be missing. -/
def IsSpelledBy (v : Json) (c : MachineConfig) : Prop :=
  v.IsRecord ["apiVersion", "kind", "metadata", "spec"] 4 (HasParts · c)

end MachineConfig

/-! ### What is read -/

open Schema Fields

namespace Ignition

/-- What a record with one text takes is an object with that text. -/
theorem reads_oneText (recordName key : String) :
    (oneText recordName key).Reads = IsOneText key := by
  funext v s
  refine propext ((reads_record_iff (by simp [Fields.keys])).trans
    (Json.isRecord_congr fun part => ?_))
  constructor
  · intro h
    obtain ⟨s, hs, rfl⟩ := completes_required.1 h
    rwa [reads_text] at hs
  · intro hs
    rw [← reads_text] at hs
    exact completes_required.2 ⟨_, hs, rfl⟩

/-- What a record with one list takes is an object with that list, which may be missing. -/
theorem reads_oneList {α : Type} (recordName key : String) (item : Schema α) :
    (oneList recordName key item).Reads = IsOneList key item.Reads := by
  funext v as
  refine propext ((reads_record_iff (by simp [Fields.keys])).trans
    (Json.isRecord_congr fun part => ?_))
  constructor
  · intro h
    obtain ⟨as, has, rfl⟩ := (completes_defaulted rfl).1 h
    rwa [reads_list] at has
  · intro has
    rw [← reads_list] at has
    exact (completes_defaulted rfl).2 ⟨_, has, rfl⟩

/-- The schema of files takes what spells a file. -/
theorem File.reads_schema : File.schema.Reads = File.IsSpelledBy := by
  funext v file
  refine propext ((reads_record_iff (by decide)).trans (Json.isRecord_congr fun part => ?_))
  -- The record is taken apart field by field in the order of its declaration and put together in
  -- the same order.
  constructor
  · intro h
    obtain ⟨filesystem, hfilesystem, h⟩ := completes_required.1 h
    obtain ⟨path, hpath, h⟩ := completes_required.1 h
    obtain ⟨source, hsource, h⟩ := completes_required.1 h
    obtain ⟨mode, hmode, rfl⟩ := (completes_optional rfl).1 h
    rw [reads_text] at hfilesystem hpath
    rw [reads_oneText] at hsource
    rw [reads_uint32] at hmode
    exact ⟨hfilesystem, hpath, hsource, hmode⟩
  · rintro ⟨hfilesystem, hpath, hsource, hmode⟩
    rw [← reads_text] at hfilesystem hpath
    rw [← reads_oneText "FileContents"] at hsource
    rw [← reads_uint32] at hmode
    exact completes_required.2 ⟨_, hfilesystem, completes_required.2 ⟨_, hpath,
      completes_required.2 ⟨_, hsource, (completes_optional rfl).2 ⟨_, hmode, rfl⟩⟩⟩⟩

/-- The schema of services takes what spells a service. -/
theorem Service.reads_schema : Service.schema.Reads = Service.IsSpelledBy := by
  funext v service
  refine propext ((reads_record_iff (by decide)).trans (Json.isRecord_congr fun part => ?_))
  constructor
  · intro h
    obtain ⟨name, hname, h⟩ := completes_required.1 h
    obtain ⟨enabled, henabled, h⟩ := (completes_optional rfl).1 h
    obtain ⟨contents, hcontents, rfl⟩ := (completes_optional rfl).1 h
    rw [reads_text] at hname hcontents
    rw [reads_flag] at henabled
    exact ⟨hname, henabled, hcontents⟩
  · rintro ⟨hname, henabled, hcontents⟩
    rw [← reads_text] at hname hcontents
    rw [← reads_flag] at henabled
    exact completes_required.2 ⟨_, hname, (completes_optional rfl).2 ⟨_, henabled,
      (completes_optional rfl).2 ⟨_, hcontents, rfl⟩⟩⟩

/-- The schema of ignition documents takes what spells one. -/
theorem Document.reads_schema : Document.schema.Reads = Document.IsSpelledBy := by
  funext v document
  refine propext ((reads_record_iff (by decide)).trans (Json.isRecord_congr fun part => ?_))
  constructor
  · intro h
    obtain ⟨version, hversion, h⟩ := completes_required.1 h
    obtain ⟨files, hfiles, h⟩ := completes_required.1 h
    obtain ⟨services, hservices, rfl⟩ := completes_required.1 h
    rw [reads_oneText] at hversion
    rw [reads_oneList, File.reads_schema] at hfiles
    rw [reads_oneList, Service.reads_schema] at hservices
    exact ⟨hversion, hfiles, hservices⟩
  · rintro ⟨hversion, hfiles, hservices⟩
    rw [← reads_oneText "Ignition"] at hversion
    rw [← File.reads_schema, ← reads_oneList "Storage"] at hfiles
    rw [← Service.reads_schema, ← reads_oneList "Systemd"] at hservices
    exact completes_required.2 ⟨_, hversion, completes_required.2 ⟨_, hfiles,
      completes_required.2 ⟨_, hservices, rfl⟩⟩⟩

end Ignition

namespace MachineConfig

/-- The names of the flavors are different. -/
theorem lookup_options_eq_some_iff (s : String) (flavor : Kernel.Flavor) :
    Kernel.Flavor.options.lookup s = some flavor ↔ s = flavor.name := by
  rw [Kernel.Flavor.options, KeyMap.lookup_cons, KeyMap.lookup_cons, List.lookup_nil]
  have hne : Kernel.Flavor.name .stock ≠ Kernel.Flavor.name .realTime := by decide
  cases flavor with
  | stock => split_ifs with hstock hrealTime <;> simp_all
  | realTime => split_ifs with hstock hrealTime <;> simp_all

/-- The name of a flavor is its word. -/
theorem name_eq_flavorWord : Kernel.Flavor.name = flavorWord := by
  funext flavor
  cases flavor <;> rfl

/-- The schema of kernel types takes what spells one. -/
theorem reads_flavorSchema : flavorSchema.Reads = FlavorIsSpelledBy := by
  unfold FlavorIsSpelledBy
  rw [← name_eq_flavorWord]
  exact reads_choice lookup_options_eq_some_iff

/-- The schema of contents takes what spells the content of a configuration. -/
theorem Spec.reads_schema : Spec.schema.Reads = Spec.IsSpelledBy := by
  funext v spec
  refine propext ((reads_record_iff (by decide)).trans (Json.isRecord_congr fun part => ?_))
  constructor
  · intro h
    obtain ⟨config, hconfig, h⟩ := completes_required.1 h
    obtain ⟨kernelArguments, hkernelArguments, h⟩ := (completes_defaulted rfl).1 h
    obtain ⟨kernelType, hkernelType, rfl⟩ := (completes_defaulted rfl).1 h
    rw [Ignition.Document.reads_schema] at hconfig
    rw [reads_list, reads_text] at hkernelArguments
    rw [reads_flavorSchema] at hkernelType
    exact ⟨hconfig, hkernelArguments, hkernelType⟩
  · rintro ⟨hconfig, hkernelArguments, hkernelType⟩
    rw [← Ignition.Document.reads_schema] at hconfig
    rw [← reads_text, ← reads_list] at hkernelArguments
    rw [← reads_flavorSchema] at hkernelType
    exact completes_required.2 ⟨_, hconfig, (completes_defaulted rfl).2 ⟨_, hkernelArguments,
      (completes_defaulted rfl).2 ⟨_, hkernelType, rfl⟩⟩⟩

/-- The schema of identities takes what spells a name and labels. -/
theorem reads_identitySchema : identitySchema.Reads = IdentityIsSpelledBy := by
  funext v identity
  refine propext ((reads_record_iff (by decide)).trans (Json.isRecord_congr fun part => ?_))
  constructor
  · intro h
    obtain ⟨name, hname, h⟩ := completes_required.1 h
    obtain ⟨labels, hlabels, rfl⟩ := (completes_defaulted rfl).1 h
    rw [reads_text] at hname
    rw [reads_labels] at hlabels
    exact ⟨hname, hlabels⟩
  · rintro ⟨hname, hlabels⟩
    rw [← reads_text] at hname
    rw [← reads_labels] at hlabels
    exact completes_required.2 ⟨_, hname, (completes_defaulted rfl).2 ⟨_, hlabels, rfl⟩⟩

/-- **A value is read as a configuration exactly if it spells the configuration**, part by part. -/
theorem ofJson_eq_ok_iff_isSpelledBy (v : Json) (c : MachineConfig) :
    schema.ofJson v = .ok c ↔ IsSpelledBy v c := by
  refine (reads_record_iff (by decide)).trans (Json.isRecord_congr fun part => ?_)
  constructor
  · intro h
    obtain ⟨apiVersion, hapiVersion, h⟩ := completes_required.1 h
    obtain ⟨kind, hkind, h⟩ := completes_required.1 h
    obtain ⟨identity, hidentity, h⟩ := completes_required.1 h
    obtain ⟨spec, hspec, rfl⟩ := completes_required.1 h
    rw [reads_text] at hapiVersion hkind
    rw [reads_identitySchema] at hidentity
    rw [Spec.reads_schema] at hspec
    exact ⟨hapiVersion, hkind, hidentity, hspec⟩
  · rintro ⟨hapiVersion, hkind, hidentity, hspec⟩
    rw [← reads_text] at hapiVersion hkind
    rw [← reads_identitySchema] at hidentity
    rw [← Spec.reads_schema] at hspec
    exact completes_required.2 ⟨_, hapiVersion, completes_required.2 ⟨_, hkind,
      completes_required.2 ⟨_, hidentity, completes_required.2 ⟨_, hspec, rfl⟩⟩⟩⟩

end MachineConfig

end MachineTuning
