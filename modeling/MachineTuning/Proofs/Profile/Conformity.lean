import MachineTuning.Profile.Schema
import MachineTuning.Proofs.Schema.Conformity

namespace MachineTuning

/-!
# Profiles — which JSON values spell them

A value spells a profile if its parts spell the parts of the profile, down to texts, flags and
counts.  Each record may be an object, whatever other members it has, or the array of its parts;
what may be left out may be null as well, except for a list of pages.

* `Profile.IsSpelledBy` and its like for the parts — what a value must look like;
* `Profile.ofJson_eq_ok_iff` — a value is read as a profile exactly if it spells it.
-/

open Json (IsText IsFlag IsInt32 IsList IsLabels IsRecord Required Defaulted Optional)

/-! ### What a value must look like -/

/-- The parts of pages of one size. -/
structure HugePage.HasParts (part : String → Option Json) (page : HugePage) : Prop where
  size : Required IsText (part "size") page.size
  count : Required IsInt32 (part "count") page.count

/-- A value spells pages of one size: the size and the number are both there. -/
def HugePage.IsSpelledBy (v : Json) (page : HugePage) : Prop :=
  v.IsRecord ["size", "count"] 2 (HugePage.HasParts · page)

/-- The parts of the huge pages of a node. -/
structure HugePages.HasParts (part : String → Option Json) (pages : HugePages) : Prop where
  defaultSize : Optional IsText (part "defaultHugepagesSize") pages.defaultSize
  pages : Defaulted [] (IsList HugePage.IsSpelledBy) (part "pages") pages.pages

/-- A value spells huge pages: there may be no default size, and there may be no pages. -/
def HugePages.IsSpelledBy (v : Json) (pages : HugePages) : Prop :=
  v.IsRecord ["defaultHugepagesSize", "pages"] 0 (HugePages.HasParts · pages)

/-- The parts of the CPUs of a node. -/
structure CpuPartition.HasParts (part : String → Option Json) (cpus : CpuPartition) : Prop where
  isolated : Optional IsText (part "isolated") cpus.isolated
  housekeeping : Required IsText (part "nonIsolated") cpus.housekeeping

/-- A value spells a partition of the CPUs: those for housekeeping are there, and those that are
    isolated may be missing. -/
def CpuPartition.IsSpelledBy (v : Json) (cpus : CpuPartition) : Prop :=
  v.IsRecord ["isolated", "nonIsolated"] 2 (CpuPartition.HasParts · cpus)

/-- The part of the wish for a real-time kernel. -/
structure RealTimeKernel.HasParts (part : String → Option Json) (kernel : RealTimeKernel) :
    Prop where
  enabled : Optional IsFlag (part "enabled") kernel.enabled

/-- A value spells a wish for the real-time kernel, which may be left open. -/
def RealTimeKernel.IsSpelledBy (v : Json) (kernel : RealTimeKernel) : Prop :=
  v.IsRecord ["enabled"] 0 (RealTimeKernel.HasParts · kernel)

/-- The parts of what a profile asks for. -/
structure TuningSpec.HasParts (part : String → Option Json) (spec : TuningSpec) : Prop where
  cpus : Required CpuPartition.IsSpelledBy (part "cpu") spec.cpus
  hugePages : Optional HugePages.IsSpelledBy (part "hugePages") spec.hugePages
  realTimeKernel : Optional RealTimeKernel.IsSpelledBy (part "realTimeKernel") spec.realTimeKernel
  labels : Optional IsLabels (part "machineConfigLabel") spec.labels

/-- A value spells a tuning: the CPUs are there, and all the rest may be missing or null. -/
def TuningSpec.IsSpelledBy (v : Json) (spec : TuningSpec) : Prop :=
  v.IsRecord ["cpu", "hugePages", "realTimeKernel", "machineConfigLabel"] 1
    (TuningSpec.HasParts · spec)

namespace Profile

/-- The identity of a profile has one part. -/
def IdentityIsSpelledBy (v : Json) (name : String) : Prop :=
  v.IsRecord ["name"] 1 fun part => Required IsText (part "name") name

/-- The parts of a profile. -/
structure HasParts (part : String → Option Json) (p : Profile) : Prop where
  apiVersion : Optional IsText (part "apiVersion") p.apiVersion
  kind : Optional IsText (part "kind") p.kind
  name : Required IdentityIsSpelledBy (part "metadata") p.name
  spec : Required TuningSpec.IsSpelledBy (part "spec") p.spec

/-- A value spells a profile: the name and the tuning are there, and the version and the kind may be
    missing or null. -/
def IsSpelledBy (v : Json) (p : Profile) : Prop :=
  v.IsRecord ["apiVersion", "kind", "metadata", "spec"] 4 (HasParts · p)

end Profile

/-! ### What is read -/

open Schema Fields

/-- The schema of pages takes what spells pages of one size. -/
theorem HugePage.reads_schema : HugePage.schema.Reads = HugePage.IsSpelledBy := by
  funext v page
  refine propext ((reads_record_iff (by decide)).trans (Json.isRecord_congr fun part => ?_))
  constructor
  · intro h
    obtain ⟨size, hsize, h⟩ := completes_required.1 h
    obtain ⟨count, hcount, rfl⟩ := completes_required.1 h
    rw [reads_text] at hsize
    rw [reads_int32] at hcount
    exact ⟨hsize, hcount⟩
  · rintro ⟨hsize, hcount⟩
    rw [← reads_text] at hsize
    rw [← reads_int32] at hcount
    exact completes_required.2 ⟨_, hsize, completes_required.2 ⟨_, hcount, rfl⟩⟩

/-- The schema of huge pages takes what spells them. -/
theorem HugePages.reads_schema : HugePages.schema.Reads = HugePages.IsSpelledBy := by
  funext v pages
  refine propext ((reads_record_iff (by decide)).trans (Json.isRecord_congr fun part => ?_))
  constructor
  · intro h
    obtain ⟨defaultSize, hdefaultSize, h⟩ := (completes_optional rfl).1 h
    obtain ⟨pages, hpages, rfl⟩ := (completes_defaulted rfl).1 h
    rw [reads_text] at hdefaultSize
    rw [reads_list, HugePage.reads_schema] at hpages
    exact ⟨hdefaultSize, hpages⟩
  · rintro ⟨hdefaultSize, hpages⟩
    rw [← reads_text] at hdefaultSize
    rw [← HugePage.reads_schema, ← reads_list] at hpages
    exact (completes_optional rfl).2
      ⟨_, hdefaultSize, (completes_defaulted rfl).2 ⟨_, hpages, rfl⟩⟩

/-- The schema of partitions takes what spells one. -/
theorem CpuPartition.reads_schema : CpuPartition.schema.Reads = CpuPartition.IsSpelledBy := by
  funext v cpus
  refine propext ((reads_record_iff (by decide)).trans (Json.isRecord_congr fun part => ?_))
  constructor
  · intro h
    obtain ⟨isolated, hisolated, h⟩ := (completes_optional rfl).1 h
    obtain ⟨housekeeping, hhousekeeping, rfl⟩ := completes_required.1 h
    rw [reads_text] at hisolated
    rw [reads_text] at hhousekeeping
    exact ⟨hisolated, hhousekeeping⟩
  · rintro ⟨hisolated, hhousekeeping⟩
    rw [← reads_text] at hisolated
    rw [← reads_text] at hhousekeeping
    exact (completes_optional rfl).2
      ⟨_, hisolated, completes_required.2 ⟨_, hhousekeeping, rfl⟩⟩

/-- The schema of the real-time kernel takes what spells a wish for it. -/
theorem RealTimeKernel.reads_schema :
    RealTimeKernel.schema.Reads = RealTimeKernel.IsSpelledBy := by
  funext v kernel
  refine propext ((reads_record_iff (by decide)).trans (Json.isRecord_congr fun part => ?_))
  constructor
  · intro h
    obtain ⟨enabled, henabled, rfl⟩ := (completes_optional rfl).1 h
    rw [reads_flag] at henabled
    exact ⟨henabled⟩
  · rintro ⟨henabled⟩
    rw [← reads_flag] at henabled
    exact (completes_optional rfl).2 ⟨_, henabled, rfl⟩

/-- The schema of tunings takes what spells one. -/
theorem TuningSpec.reads_schema : TuningSpec.schema.Reads = TuningSpec.IsSpelledBy := by
  funext v spec
  refine propext ((reads_record_iff (by decide)).trans (Json.isRecord_congr fun part => ?_))
  -- Required members and optional ones alternate as they are declared; each is read by the lemma of
  -- its own record.
  constructor
  · intro h
    obtain ⟨cpus, hcpus, h⟩ := completes_required.1 h
    obtain ⟨hugePages, hhugePages, h⟩ := (completes_optional rfl).1 h
    obtain ⟨realTimeKernel, hrealTimeKernel, h⟩ := (completes_optional rfl).1 h
    obtain ⟨labels, hlabels, rfl⟩ := (completes_optional rfl).1 h
    rw [CpuPartition.reads_schema] at hcpus
    rw [HugePages.reads_schema] at hhugePages
    rw [RealTimeKernel.reads_schema] at hrealTimeKernel
    rw [reads_labels] at hlabels
    exact ⟨hcpus, hhugePages, hrealTimeKernel, hlabels⟩
  · rintro ⟨hcpus, hhugePages, hrealTimeKernel, hlabels⟩
    rw [← CpuPartition.reads_schema] at hcpus
    rw [← HugePages.reads_schema] at hhugePages
    rw [← RealTimeKernel.reads_schema] at hrealTimeKernel
    rw [← reads_labels] at hlabels
    exact completes_required.2 ⟨_, hcpus, (completes_optional rfl).2 ⟨_, hhugePages,
      (completes_optional rfl).2 ⟨_, hrealTimeKernel,
        (completes_optional rfl).2 ⟨_, hlabels, rfl⟩⟩⟩⟩

namespace Profile

/-- The schema of identities takes what spells a name. -/
theorem reads_identitySchema : identitySchema.Reads = IdentityIsSpelledBy := by
  funext v name
  refine propext ((reads_record_iff (by decide)).trans (Json.isRecord_congr fun part => ?_))
  constructor
  · intro h
    obtain ⟨name, hname, rfl⟩ := completes_required.1 h
    rwa [reads_text] at hname
  · intro hname
    rw [← reads_text] at hname
    exact completes_required.2 ⟨_, hname, rfl⟩

/-- **A value is read as a profile exactly if it spells the profile**, part by part. -/
theorem ofJson_eq_ok_iff (v : Json) (p : Profile) :
    schema.ofJson v = .ok p ↔ IsSpelledBy v p := by
  refine (reads_record_iff (by decide)).trans (Json.isRecord_congr fun part => ?_)
  constructor
  · intro h
    obtain ⟨apiVersion, hapiVersion, h⟩ := (completes_optional rfl).1 h
    obtain ⟨kind, hkind, h⟩ := (completes_optional rfl).1 h
    obtain ⟨name, hname, h⟩ := completes_required.1 h
    obtain ⟨spec, hspec, rfl⟩ := completes_required.1 h
    rw [reads_text] at hapiVersion hkind
    rw [reads_identitySchema] at hname
    rw [TuningSpec.reads_schema] at hspec
    exact ⟨hapiVersion, hkind, hname, hspec⟩
  · rintro ⟨hapiVersion, hkind, hname, hspec⟩
    rw [← reads_text] at hapiVersion hkind
    rw [← reads_identitySchema] at hname
    rw [← TuningSpec.reads_schema] at hspec
    exact (completes_optional rfl).2 ⟨_, hapiVersion, (completes_optional rfl).2 ⟨_, hkind,
      completes_required.2 ⟨_, hname, completes_required.2 ⟨_, hspec, rfl⟩⟩⟩⟩

end Profile

end MachineTuning
