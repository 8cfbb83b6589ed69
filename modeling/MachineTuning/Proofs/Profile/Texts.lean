import MachineTuning.Proofs.Json.Texts
import MachineTuning.Proofs.Profile.ReadBack

namespace MachineTuning

/-!
# The texts of a profile

A profile carries its names, CPU lists, page sizes and the values of its labels as they are spelled.
`Profile.texts` are these texts in the order of the document, `Profile.mapTexts` changes them.  The
keys of the labels are keys of the document, beside those that every profile has.

* `Profile.toJson_mapTexts`, `Profile.texts_toJson` — they are the texts of the document;
* `Profile.forall_mem_keys_iff` — whether all keys of the document are in a class is settled by the
  labels.
-/

open Schema Fields

/-! ### Documents -/

/-- Huge pages are written with their pages, and with a default size if there is one. -/
theorem HugePages.toJson_eq (pages : HugePages) :
    schema.toJson pages = .object
      ((pages.defaultSize.toList.map fun s => ("defaultHugepagesSize", .text s)) ++
        [("pages", .array (pages.pages.map HugePage.schema.toJson))]) := by
  rw [schema, toJson, toMembers_cons_optional neverNull_text, toMembers_cons (neverNull_list _),
    toMembers]
  rfl

/-- A partition is written with the CPUs for housekeeping, and with the isolated ones if there are
    any. -/
theorem CpuPartition.toJson_eq (cpus : CpuPartition) :
    schema.toJson cpus = .object
      ((cpus.isolated.toList.map fun s => ("isolated", .text s)) ++
        [("nonIsolated", .text cpus.housekeeping)]) := by
  rw [schema, toJson, toMembers_cons_optional neverNull_text, toMembers_cons neverNull_text,
    toMembers]
  rfl

/-- A wish for the real-time kernel is written if there is one. -/
theorem RealTimeKernel.toJson_eq (kernel : RealTimeKernel) :
    schema.toJson kernel =
      .object (kernel.enabled.toList.map fun b => ("enabled", .boolean b)) := by
  rw [schema, toJson, toMembers_cons_optional (fun _ => rfl), toMembers, List.append_nil]
  rfl

/-- A tuning is written with its CPUs, and with the other parts as far as they are there. -/
theorem TuningSpec.toJson_eq (spec : TuningSpec) :
    schema.toJson spec = .object
      (("cpu", CpuPartition.schema.toJson spec.cpus) ::
        ((spec.hugePages.toList.map fun pages => ("hugePages", HugePages.schema.toJson pages)) ++
          ((spec.realTimeKernel.toList.map fun kernel =>
              ("realTimeKernel", RealTimeKernel.schema.toJson kernel)) ++
            spec.labels.toList.map fun labels =>
              ("machineConfigLabel", .object (labels.toList.map fun e => (e.1, .text e.2)))))) := by
  have hcpus : CpuPartition.schema.NeverNull := neverNull_record _ _ _
  have hpages : HugePages.schema.NeverNull := neverNull_record _ _ _
  have hkernel : RealTimeKernel.schema.NeverNull := neverNull_record _ _ _
  rw [schema, toJson, toMembers_cons hcpus, toMembers_cons_optional hpages,
    toMembers_cons_optional hkernel, toMembers_cons_optional neverNull_labels, toMembers,
    List.append_nil]
  rfl

/-- A profile is written with its name and its tuning, and with its version and kind if they are
    there. -/
theorem Profile.toJson_eq (p : Profile) :
    schema.toJson p = .object
      ((p.apiVersion.toList.map fun s => ("apiVersion", .text s)) ++
        ((p.kind.toList.map fun s => ("kind", .text s)) ++
          [("metadata", .object [("name", .text p.name)]),
            ("spec", TuningSpec.schema.toJson p.spec)])) := by
  have hidentity : identitySchema.NeverNull := neverNull_record _ _ _
  have hspec : TuningSpec.schema.NeverNull := neverNull_record _ _ _
  rw [schema, toJson, toMembers_cons_optional neverNull_text,
    toMembers_cons_optional neverNull_text, toMembers_cons hidentity, toMembers_cons hspec,
    toMembers]
  rfl

/-! ### Texts -/

/-- The texts in huge pages. -/
def HugePages.texts (pages : HugePages) : List String :=
  pages.defaultSize.toList ++ pages.pages.map (·.size)

/-- The texts in a partition of the CPUs. -/
def CpuPartition.texts (cpus : CpuPartition) : List String :=
  cpus.isolated.toList ++ [cpus.housekeeping]

/-- The texts in a tuning. -/
def TuningSpec.texts (spec : TuningSpec) : List String :=
  spec.cpus.texts ++ (spec.hugePages.toList.flatMap (·.texts) ++
    spec.labels.toList.flatMap fun labels => labels.toList.map (·.2))

/-- The texts of a profile. -/
def Profile.texts (p : Profile) : List String :=
  p.apiVersion.toList ++ (p.kind.toList ++ p.name :: p.spec.texts)

/-- The keys of a profile's labels. -/
def Profile.labelKeys (p : Profile) : List String :=
  p.spec.labels.toList.flatMap fun labels => labels.toList.map (·.1)

/-- What is written for huge pages holds their texts. -/
theorem HugePages.texts_toJson (pages : HugePages) :
    (schema.toJson pages).texts = pages.texts := by
  have hpage (page : HugePage) : (HugePage.schema.toJson page).texts = [page.size] := rfl
  simp [toJson_eq, Json.texts, Json.memberTexts_eq_flatMap, Json.itemTexts_eq_flatMap,
    List.flatMap_map, hpage, texts, ← List.map_eq_flatMap]

/-- What is written for a partition holds its texts. -/
theorem CpuPartition.texts_toJson (cpus : CpuPartition) :
    (schema.toJson cpus).texts = cpus.texts := by
  simp [toJson_eq, Json.texts, Json.memberTexts_eq_flatMap, List.flatMap_map, texts]

/-- What is written for the real-time kernel holds no texts. -/
theorem RealTimeKernel.texts_toJson (kernel : RealTimeKernel) :
    (schema.toJson kernel).texts = [] := by
  simp [toJson_eq, Json.texts, Json.memberTexts_eq_flatMap, List.flatMap_map]

/-- What is written for a tuning holds its texts. -/
theorem TuningSpec.texts_toJson (spec : TuningSpec) :
    (schema.toJson spec).texts = spec.texts := by
  simp [toJson_eq, Json.texts, Json.memberTexts_eq_flatMap, List.flatMap_map, texts,
    CpuPartition.texts_toJson, HugePages.texts_toJson, RealTimeKernel.texts_toJson,
    ← List.map_eq_flatMap]

/-- What is written for a profile holds its texts. -/
theorem Profile.texts_toJson (p : Profile) : (schema.toJson p).texts = p.texts := by
  simp [toJson_eq, Json.texts, Json.memberTexts_eq_flatMap, List.flatMap_map, texts,
    TuningSpec.texts_toJson]

/-! ### Changed texts -/

section MapTexts

variable (f : String → String)

/-- Pages of one size with other texts. -/
def HugePage.mapTexts (page : HugePage) : HugePage :=
  { page with size := f page.size }

/-- Huge pages with other texts. -/
def HugePages.mapTexts (pages : HugePages) : HugePages :=
  ⟨pages.defaultSize.map f, pages.pages.map (·.mapTexts f)⟩

/-- A partition of the CPUs with other texts. -/
def CpuPartition.mapTexts (cpus : CpuPartition) : CpuPartition :=
  ⟨cpus.isolated.map f, f cpus.housekeeping⟩

/-- A tuning with other texts. -/
def TuningSpec.mapTexts (spec : TuningSpec) : TuningSpec :=
  { spec with
    cpus := spec.cpus.mapTexts f
    hugePages := spec.hugePages.map (·.mapTexts f)
    labels := spec.labels.map (·.mapValues f) }

/-- A profile with its texts changed. -/
def Profile.mapTexts (p : Profile) : Profile :=
  ⟨p.apiVersion.map f, p.kind.map f, f p.name, p.spec.mapTexts f⟩

/-- Huge pages with other texts are written with those. -/
theorem HugePages.toJson_mapTexts (pages : HugePages) :
    schema.toJson (pages.mapTexts f) = (schema.toJson pages).mapTexts f := by
  have hpage (page : HugePage) : HugePage.schema.toJson (page.mapTexts f) =
    (HugePage.schema.toJson page).mapTexts f := rfl
  simp [toJson_eq, Json.mapTexts, Json.mapMemberTexts_eq_map, Json.mapItemTexts_eq_map, hpage,
    mapTexts, Option.toList_map, Function.comp_def]

/-- A partition with other texts is written with those. -/
theorem CpuPartition.toJson_mapTexts (cpus : CpuPartition) :
    schema.toJson (cpus.mapTexts f) = (schema.toJson cpus).mapTexts f := by
  simp [toJson_eq, Json.mapTexts, Json.mapMemberTexts_eq_map, mapTexts, Option.toList_map,
    Function.comp_def]

/-- A tuning with other texts is written with those. -/
theorem TuningSpec.toJson_mapTexts (spec : TuningSpec) :
    schema.toJson (spec.mapTexts f) = (schema.toJson spec).mapTexts f := by
  simp [toJson_eq, Json.mapTexts, Json.mapMemberTexts_eq_map, mapTexts, KeyMap.mapValues,
    CpuPartition.toJson_mapTexts, HugePages.toJson_mapTexts, RealTimeKernel.toJson_eq,
    Option.toList_map, Function.comp_def]

/-- A profile with other texts is written with those. -/
theorem Profile.toJson_mapTexts (p : Profile) :
    schema.toJson (p.mapTexts f) = (schema.toJson p).mapTexts f := by
  simp [toJson_eq, Json.mapTexts, Json.mapMemberTexts_eq_map, mapTexts, TuningSpec.toJson_mapTexts,
    Option.toList_map, Function.comp_def]

/-- A profile stays as it is if and only if its texts do. -/
theorem Profile.mapTexts_eq_self_iff {p : Profile} :
    p.mapTexts f = p ↔ ∀ s ∈ p.texts, f s = s := by
  rw [← p.texts_toJson, ← Json.mapTexts_eq_self_iff, ← p.toJson_mapTexts f]
  refine ⟨congrArg schema.toJson, fun heq => ?_⟩
  -- Documents tell profiles apart, since each is read back.
  have hread := readsBack_schema (p.mapTexts f)
  rw [heq, readsBack_schema p] at hread
  exact (Except.ok.inj hread).symm

end MapTexts

/-! ### Keys -/

/-- The names of the members of a profile and of its parts. -/
def Profile.memberNames : List String :=
  ["apiVersion", "kind", "metadata", "name", "spec", "cpu", "isolated", "nonIsolated", "hugePages",
    "defaultHugepagesSize", "pages", "size", "count", "realTimeKernel", "enabled",
    "machineConfigLabel"]

section Keys

variable {P : String → Prop} (h : ∀ key ∈ Profile.memberNames, P key)
include h

/-- The keys in huge pages are names of members. -/
theorem HugePages.forall_mem_keys (pages : HugePages) :
    ∀ key ∈ (schema.toJson pages).keys, P key := by
  have hpage (page : HugePage) : (HugePage.schema.toJson page).keys = ["size", "count"] := rfl
  simp only [Profile.memberNames, List.forall_mem_cons] at h
  simp only [toJson_eq, Json.keys, Json.forall_mem_memberKeys_iff, Json.forall_mem_itemKeys_iff,
    List.forall_mem_append, List.forall_mem_map, List.forall_mem_cons, hpage]
  simp [h]

/-- The keys in a partition are names of members. -/
theorem CpuPartition.forall_mem_keys (cpus : CpuPartition) :
    ∀ key ∈ (schema.toJson cpus).keys, P key := by
  simp only [Profile.memberNames, List.forall_mem_cons] at h
  simp only [toJson_eq, Json.keys, Json.forall_mem_memberKeys_iff, List.forall_mem_append,
    List.forall_mem_map, List.forall_mem_cons]
  simp [h]

/-- The key of the real-time kernel is the name of a member. -/
theorem RealTimeKernel.forall_mem_keys (kernel : RealTimeKernel) :
    ∀ key ∈ (schema.toJson kernel).keys, P key := by
  simp only [Profile.memberNames, List.forall_mem_cons] at h
  simp only [toJson_eq, Json.keys, Json.forall_mem_memberKeys_iff, List.forall_mem_map]
  simp [h]

/-- Whether all keys of a profile's document are in a class is settled by the labels, if the class
    holds the names of the members. -/
theorem Profile.forall_mem_keys_iff (p : Profile) :
    (∀ key ∈ (schema.toJson p).keys, P key) ↔ ∀ key ∈ p.labelKeys, P key := by
  have hcpus := CpuPartition.forall_mem_keys h
  have hpages := HugePages.forall_mem_keys h
  have hkernel := RealTimeKernel.forall_mem_keys h
  simp only [Profile.memberNames, List.forall_mem_cons] at h
  -- With the fixed names out of the way, the keys of the labels remain.
  simp only [toJson_eq, TuningSpec.toJson_eq, Json.keys, Json.forall_mem_memberKeys_iff,
    List.forall_mem_append, List.forall_mem_map, List.forall_mem_cons, labelKeys,
    List.forall_mem_flatMap, List.not_mem_nil, false_imp_iff, implies_true, h, true_and, and_true]
  exact ⟨fun hall => hall.2.2.2, fun hlabels =>
    ⟨hcpus _, fun pages _ => hpages pages, fun kernel _ => hkernel kernel, hlabels⟩⟩

end Keys

end MachineTuning
