import MachineTuning.Proofs.Profile.File
import MachineTuning.Proofs.Schema.NodeReadBack
import MachineTuning.Proofs.Yaml.Outline.Nodes

namespace MachineTuning

/-!
# Profiles without quotes — CPU lists that look like something else

People leave quotes out.  Names and CPU lists are still loaded as they stand in the file: where a
text is expected, nothing is taken for a number or a truth value.  Where a text may be missing, the
words for nothing say that it is.

* `Schema.ofNode_optionalText` — what an optional text is read as;
* `Profile.load_unquoted` — what is loaded from a profile without quotes.
-/

open Yaml

/-! ### Optional texts -/

/-- Of the words for nothing only the tilde starts with neither a letter nor a digit. -/
theorem Yaml.isNull_of_isUnquoted {s : String} (h : IsUnquoted s.toList) :
    Scalar.isNull s ↔ s ∈ ["null", "Null", "NULL"] := by
  have htilde : s ≠ "~" := by
    rintro rfl
    exact h.head?_ne (d := '~') rfl rfl
  simp [Scalar.isNull, htilde]

/-- **An optional text** is missing if a word for nothing is written, and else it is what is
    written. -/
theorem Schema.ofNode_optionalText {node : Node} {s : UnquotedText} (h : node.Shows (.text s))
    (anchors : List (Nat × Node)) (path : Path) :
    (optional text).ofNode anchors path node =
      .ok (if s.text ∈ ["null", "Null", "NULL"] then none else some s.text) := by
  obtain ⟨mark, rfl⟩ := h
  have hempty : s.text.isEmpty = false :=
    String.isEmpty_eq_false_iff.2 fun heq =>
      s.isUnquoted.isPlain.ne_nil (String.toList_eq_nil_iff.2 heq)
  have habsent : Scalar.isAbsent { mark } .plain s.text = .ok (Scalar.isNull s.text) := by
    show Except.ok (s.text.isEmpty || Scalar.isNull s.text) = _
    rw [hempty, Bool.false_or]
  have hiff := Yaml.isNull_of_isUnquoted s.isUnquoted
  -- The tilde is no unquoted text, so that three of the words for nothing are left.
  cases hnull : Scalar.isNull s.text with
  | true =>
    rw [if_pos (hiff.1 hnull)]
    simp only [ofNode, Node.target, habsent, hnull]
  | false =>
    rw [if_neg fun hmem => by simp [hiff.2 hmem] at hnull]
    simp only [ofNode, Node.target, habsent, hnull]
    rfl

namespace Profile

/-! ### The document -/

/-- The lines of a profile with its name and its CPUs. -/
def unquotedLines (name isolated housekeeping : String) : List String :=
  ["metadata:",
    "  name: " ++ name,
    "spec:",
    "  cpu:",
    "    isolated: " ++ isolated,
    "    nonIsolated: " ++ housekeeping]

section Document

variable (name isolated housekeeping : UnquotedText)

/-- Its identity. -/
def identityOutline : Outline.Members :=
  .last ⟨"name", rfl⟩ (.text name)

/-- Its CPUs. -/
def cpuOutline : Outline.Members :=
  .cons ⟨"isolated", rfl⟩ (.text isolated) (.last ⟨"nonIsolated", rfl⟩ (.text housekeeping))

/-- What it asks for. -/
def specOutline : Outline.Members :=
  .last ⟨"cpu", rfl⟩ (.mapping (cpuOutline isolated housekeeping))

/-- The document, without its ending. -/
def unquotedOutline : Outline.Members :=
  .cons ⟨"metadata", rfl⟩ (.mapping (identityOutline name))
    (.last ⟨"spec", rfl⟩ (.mapping (specOutline isolated housekeeping)))

/-- The outline of an unquoted profile is its lines. -/
theorem chars_unquotedOutline :
    String.ofList ((unquotedOutline name isolated housekeeping).chars 0) =
      "\n".intercalate (unquotedLines name.text isolated.text housekeeping.text) := by
  have hkeys : ∀ key ∈ ["metadata", "name", "spec", "cpu", "isolated", "nonIsolated"],
      keyChars key = key.toList := by
    decide
  apply String.toList_injective
  simp [unquotedOutline, identityOutline, specOutline, cpuOutline, Outline.Members.chars,
    Outline.chars, hkeys, indentation, unquotedLines, String.intercalate_cons_cons]

/-! ### Reading it -/

/-- The CPUs that it asks for. -/
def unquotedCpus : CpuPartition :=
  ⟨if isolated.text ∈ ["null", "Null", "NULL"] then none else some isolated.text, housekeeping.text⟩

variable {name isolated housekeeping} {node : Node} (anchors : List (Nat × Node)) (path : Yaml.Path)

/-- The name is read from its outline. -/
theorem ofNode_identityOutline (h : node.Shows (.mapping (identityOutline name))) :
    identitySchema.ofNode anchors path node = .ok name.text := by
  obtain ⟨mark, _, rfl, _, _, _, rfl, hkey, ⟨_, rfl⟩, rfl⟩ := h
  refine Schema.ofNode_record_eq_ok [("name", fun _ => name.text)] ?_ rfl mark
  exact Schema.readMembers_cons_eq_ok hkey rfl List.not_mem_nil rfl

/-- The CPUs are read from their outline. -/
theorem ofNode_cpuOutline (h : node.Shows (.mapping (cpuOutline isolated housekeeping))) :
    CpuPartition.schema.ofNode anchors path node = .ok (unquotedCpus isolated housekeeping) := by
  obtain ⟨mark, _, rfl, _, _, _, rfl, hkey, hisolated, _, _, _, rfl, hkey', ⟨_, rfl⟩, rfl⟩ := h
  have hread := congrArg (Except.map fun isolated (cpus : CpuPartition) => { cpus with isolated })
    (Schema.ofNode_optionalText hisolated anchors (.member path "isolated"))
  refine Schema.ofNode_record_eq_ok
    [("isolated", fun cpus =>
        { cpus with isolated := (unquotedCpus isolated housekeeping).isolated }),
      ("nonIsolated", fun cpus => { cpus with housekeeping := housekeeping.text })] ?_ rfl mark
  exact Schema.readMembers_cons_eq_ok hkey (congrArg some hread) List.not_mem_nil
    (Schema.readMembers_cons_eq_ok hkey' rfl (by decide) rfl)

/-- A tuning with nothing but CPUs is read from its outline. -/
theorem ofNode_specOutline (h : node.Shows (.mapping (specOutline isolated housekeeping))) :
    TuningSpec.schema.ofNode anchors path node =
      .ok ⟨unquotedCpus isolated housekeeping, none, none, none⟩ := by
  obtain ⟨mark, _, rfl, _, _, _, rfl, hkey, hcpus, rfl⟩ := h
  have hread := congrArg (Except.map fun cpus (spec : TuningSpec) => { spec with cpus })
    (ofNode_cpuOutline anchors (.member path "cpu") hcpus)
  refine Schema.ofNode_record_eq_ok
    [("cpu", fun spec => { spec with cpus := unquotedCpus isolated housekeeping })] ?_ rfl mark
  exact Schema.readMembers_cons_eq_ok hkey (congrArg some hread) List.not_mem_nil rfl

/-- The profile is read from its outline. -/
theorem ofNode_unquotedOutline
    (h : node.Shows (.mapping (unquotedOutline name isolated housekeeping))) :
    schema.ofNode anchors path node =
      .ok { new name.text "" with spec.cpus := unquotedCpus isolated housekeeping } := by
  obtain ⟨mark, _, rfl, _, _, _, rfl, hkey, hname, _, _, _, rfl, hkey', hspec, rfl⟩ := h
  have hread := congrArg (Except.map fun name (p : Profile) => { p with name })
    (ofNode_identityOutline anchors (.member path "metadata") hname)
  have hread' := congrArg (Except.map fun spec (p : Profile) => { p with spec })
    (ofNode_specOutline anchors (.member path "spec") hspec)
  refine Schema.ofNode_record_eq_ok
    [("metadata", fun p => { p with name := name.text }),
      ("spec", fun p =>
        { p with spec := ⟨unquotedCpus isolated housekeeping, none, none, none⟩ })] ?_ rfl mark
  exact Schema.readMembers_cons_eq_ok hkey (congrArg some hread) List.not_mem_nil
    (Schema.readMembers_cons_eq_ok hkey' (congrArg some hread') (by decide) rfl)

end Document

/-! ### Loading it -/

/-- **Texts without quotes are loaded as they are written**, whatever they look like, and with or
    without a break at the end of the file.  Only of the isolated CPUs, which may be missing, the
    words for nothing say so. -/
theorem load_unquoted {fs : FileSystem} {path name isolated housekeeping ending : String}
    (hname : IsUnquoted name.toList) (hisolated : IsUnquoted isolated.toList)
    (hhousekeeping : IsUnquoted housekeeping.toList) (hending : ending = "" ∨ ending = "\n")
    (hfile : fs path = .ok
      (Text.utf8 ("\n".intercalate (unquotedLines name isolated housekeeping) ++ ending))) :
    load fs path = .ok
      { new name housekeeping with
        spec.cpus.isolated :=
          if isolated ∈ ["null", "Null", "NULL"] then none else some isolated } := by
  have hending' : ending.toList = [] ∨ ending.toList = ['\n'] := by
    rcases hending with rfl | rfl
    · exact .inl rfl
    · exact .inr rfl
  -- The lines are the text of an outline, and any reader of outlines finds its texts again.
  let outline := unquotedOutline ⟨name, hname⟩ ⟨isolated, hisolated⟩ ⟨housekeeping, hhousekeeping⟩
  obtain ⟨document, hparse, hshows⟩ := outline.exists_parse?_eq hending'
  rw [String.ofList_append, String.ofList_toList, chars_unquotedOutline] at hparse
  refine load_eq_ok_iff.2 ⟨_, hfile, ?_⟩
  rw [Yaml.read, hparse]
  simp only [ofNode_unquotedOutline document.anchors .root hshows]
  rfl

/-- Names and lists that look like numbers or like nothing, or have signs in them. -/
theorem load_unquoted_lookalikes :
    let file (isolated : String) : FileSystem := fun _ => .ok (Text.utf8
      ("\n".intercalate (unquotedLines "0x1F" isolated "0,2-3:1,#4") ++ "\n"))
    load (file "NULL") "profile.yaml" = .ok (new "0x1F" "0,2-3:1,#4") ∧
      load (file "007") "profile.yaml" =
        .ok ((new "0x1F" "0,2-3:1,#4").withIsolated "007") := by
  intro file
  have hfile (isolated : String) : file isolated "profile.yaml" = .ok (Text.utf8
      ("\n".intercalate (unquotedLines "0x1F" isolated "0,2-3:1,#4") ++ "\n")) := rfl
  have hnothing := load_unquoted (by decide) (by decide) (by decide) (.inr rfl) (hfile "NULL")
  have hdigits := load_unquoted (by decide) (by decide) (by decide) (.inr rfl) (hfile "007")
  exact ⟨hnothing.trans rfl, hdigits.trans rfl⟩

end Profile

end MachineTuning
