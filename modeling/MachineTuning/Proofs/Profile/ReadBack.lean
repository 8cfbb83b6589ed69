import MachineTuning.Profile.Schema
import MachineTuning.Proofs.Schema.ReadBack

namespace MachineTuning

/-!
# Profiles — their documents read back

A part of a profile that is left out is not written, and a part that is there is written even if
all of its own parts are left out.  So every profile has a document of its own, and what was read
from some other spelling of it is the same after it was written and read again.

* `Profile.readsBack_schema` — every profile is read from what is written for it;
* `Profile.compact_isFaithful` — so no text stands for two profiles, and writing settles the
  spelling.
-/

open Schema

/-- The schema of pages of one size is regular. -/
theorem HugePage.isRegular_schema : HugePage.schema.IsRegular :=
  ⟨by decide, fun _ => rfl, trivial, fun _ => neverNull_text, trivial, fun _ _ => rfl, trivial⟩

/-- The schema of huge pages is regular. -/
theorem HugePages.isRegular_schema : HugePages.schema.IsRegular := by
  refine ⟨by decide, fun pages => ?_, ⟨trivial, neverNull_text⟩, nofun, HugePage.isRegular_schema,
    nofun, trivial⟩
  obtain ⟨defaultSize, pages⟩ := pages
  cases defaultSize <;> rfl

/-- The schema of partitions is regular. -/
theorem CpuPartition.isRegular_schema : CpuPartition.schema.IsRegular := by
  refine ⟨by decide, fun cpus => ?_, ⟨trivial, neverNull_text⟩, nofun, trivial,
    fun _ => neverNull_text, trivial⟩
  obtain ⟨isolated, housekeeping⟩ := cpus
  cases isolated <;> rfl

/-- The schema of the real-time kernel is regular. -/
theorem RealTimeKernel.isRegular_schema : RealTimeKernel.schema.IsRegular := by
  refine ⟨by decide, fun kernel => ?_, ⟨trivial, fun _ => rfl⟩, nofun, trivial⟩
  obtain ⟨enabled⟩ := kernel
  cases enabled <;> rfl

/-- The schema of tunings is regular. -/
theorem TuningSpec.isRegular_schema : TuningSpec.schema.IsRegular := by
  refine ⟨by decide, fun spec => ?_, CpuPartition.isRegular_schema, fun _ => neverNull_record _ _ _,
    ⟨HugePages.isRegular_schema, neverNull_record _ _ _⟩, nofun,
    ⟨RealTimeKernel.isRegular_schema, neverNull_record _ _ _⟩, nofun,
    ⟨trivial, neverNull_labels⟩, nofun, trivial⟩
  obtain ⟨cpus, hugePages, realTimeKernel, labels⟩ := spec
  cases hugePages <;> cases realTimeKernel <;> cases labels <;> rfl

namespace Profile

/-- The schema of names is regular. -/
theorem isRegular_identitySchema : identitySchema.IsRegular :=
  ⟨by decide, fun _ => rfl, trivial, fun _ => neverNull_text, trivial⟩

/-- The schema of profiles is regular. -/
theorem isRegular_schema : schema.IsRegular := by
  refine ⟨by decide, fun p => ?_, ⟨trivial, neverNull_text⟩, nofun, ⟨trivial, neverNull_text⟩,
    nofun, isRegular_identitySchema, fun _ => neverNull_record _ _ _,
    TuningSpec.isRegular_schema, fun _ => neverNull_record _ _ _, trivial⟩
  obtain ⟨apiVersion, kind, name, spec⟩ := p
  cases apiVersion <;> cases kind <;> rfl

/-- Every profile is read from what is written for it. -/
theorem readsBack_schema : schema.ReadsBack :=
  isRegular_schema.readsBack

/-- **The document form of a profile loses nothing.**  A profile is read back from its text, no
    other profile has that text, and whatever value the profile was read from, writing it and
    reading it again changes neither the profile nor its text. -/
theorem compact_isFaithful (p : Profile) :
    schema.ofText? (schema.toJson p).compact = some p ∧
      (∀ q, (schema.toJson q).compact = (schema.toJson p).compact ↔ q = p) ∧
      ∀ v, schema.ofJson v = .ok p → ∃ w, Json.parse? (schema.toJson p).compact = some w ∧
        schema.ofJson w = schema.ofJson v ∧
        (schema.ofJson w).map (fun q => (schema.toJson q).compact) =
          .ok (schema.toJson p).compact := by
  refine ⟨ofText?_compact readsBack_schema p, fun q => compact_toJson_inj readsBack_schema, ?_⟩
  intro v hv
  have hread : schema.ofJson (schema.toJson p) = .ok p := readsBack_schema p
  have hparse : Json.parse? (schema.toJson p).compact = some (schema.toJson p) :=
    Json.parse?_compact (schema.isExact_toJson p)
  refine ⟨schema.toJson p, hparse, hread.trans hv.symm, ?_⟩
  rw [hread]
  rfl

/-- Parts without content are kept, from a document of arrays, nulls and members that mean
    nothing, and are not taken for parts that are left out. -/
theorem compact_isFaithful_emptyParts :
    let p : Profile := ⟨none, none, "n", ⟨⟨none, "0"⟩, some ⟨none, []⟩, some ⟨none⟩, some .empty⟩⟩
    let v : Json := .array [.null, .null, .array [.text "n"],
      .array [.object [("nonIsolated", .text "0"), ("zone", .text "x")],
        .object [("defaultHugepagesSize", .null)], .array [], .object []]]
    schema.ofJson v = .ok p ∧
      (∃ w, Json.parse? (schema.toJson p).compact = some w ∧
        schema.ofJson w = schema.ofJson v ∧
        (schema.ofJson w).map (fun q => (schema.toJson q).compact) =
          .ok (schema.toJson p).compact) ∧
      (schema.toJson (.new "n" "0")).compact ≠ (schema.toJson p).compact := by
  intro p v
  have hv : schema.ofJson v = .ok p := rfl
  obtain ⟨-, hsame, hrewritten⟩ := compact_isFaithful p
  -- Parts that are there and empty are not parts that are missing.
  have hne : Profile.new "n" "0" ≠ p := by decide
  exact ⟨hv, hrewritten v hv, fun h => hne ((hsame _).1 h)⟩

end Profile

end MachineTuning
