import MachineTuning.MachineConfig
import MachineTuning.Proofs.Schema.ReadBack

namespace MachineTuning

/-!
# Machine configurations — their documents read back

Every record of a machine configuration names its members apart and reads all of them back, so
that no two configurations, and no two ignition documents, have the same text.
-/

open Schema

namespace Ignition

/-- Records with one text are regular. -/
theorem isRegular_oneText (recordName key : String) : (oneText recordName key).IsRegular :=
  ⟨by simp [Fields.keys], fun _ => rfl, trivial, fun _ => neverNull_text, trivial⟩

/-- Records with one list are regular if the items are. -/
theorem isRegular_oneList {α : Type} (recordName key : String) {item : Schema α}
    (h : item.IsRegular) : (oneList recordName key item).IsRegular :=
  ⟨by simp [Fields.keys], fun _ => rfl, h, fun _ => neverNull_list item, trivial⟩

/-- The schema of files is regular. -/
theorem File.isRegular_schema : File.schema.IsRegular := by
  -- The members in the order of their declaration; none of those that must be there is written as
  -- null.
  refine ⟨by decide, fun file => ?_, trivial, fun _ => neverNull_text, trivial,
    fun _ => neverNull_text, isRegular_oneText _ _, fun _ => neverNull_record _ _ _,
    ⟨trivial, fun _ => rfl⟩, nofun, trivial⟩
  obtain ⟨filesystem, path, source, mode⟩ := file
  cases mode <;> rfl

/-- The schema of services is regular. -/
theorem Service.isRegular_schema : Service.schema.IsRegular := by
  refine ⟨by decide, fun service => ?_, trivial, fun _ => neverNull_text,
    ⟨trivial, fun _ => rfl⟩, nofun, ⟨trivial, neverNull_text⟩, nofun, trivial⟩
  -- A part that is left out is put back as missing.
  obtain ⟨name, enabled, contents⟩ := service
  cases enabled <;> cases contents <;> rfl

/-- The schema of ignition documents is regular. -/
theorem Document.isRegular_schema : Document.schema.IsRegular :=
  ⟨by decide, fun _ => rfl, isRegular_oneText _ _, fun _ => neverNull_record _ _ _,
    isRegular_oneList _ _ File.isRegular_schema, fun _ => neverNull_record _ _ _,
    isRegular_oneList _ _ Service.isRegular_schema, fun _ => neverNull_record _ _ _, trivial⟩

/-- Every ignition document is read from what is written for it. -/
theorem Document.readsBack_schema : Document.schema.ReadsBack :=
  Document.isRegular_schema.readsBack

end Ignition

namespace MachineConfig

/-- The schema of names and labels is regular. -/
theorem isRegular_identitySchema : identitySchema.IsRegular :=
  ⟨by decide, fun _ => rfl, trivial, fun _ => neverNull_text, trivial, fun _ => neverNull_labels,
    trivial⟩

/-- The schema of kernel types is regular, as each has a name of its own. -/
theorem isRegular_flavorSchema : flavorSchema.IsRegular := by
  intro flavor
  cases flavor <;> rfl

/-- The schema of contents is regular. -/
theorem Spec.isRegular_schema : Spec.schema.IsRegular :=
  ⟨by decide, fun _ => rfl, Ignition.Document.isRegular_schema, fun _ => neverNull_record _ _ _,
    trivial, fun _ => neverNull_list _, isRegular_flavorSchema, fun _ => fun _ => rfl, trivial⟩

/-- The schema of machine configurations is regular. -/
theorem isRegular_schema : schema.IsRegular :=
  ⟨by decide, fun _ => rfl, trivial, fun _ => neverNull_text, trivial, fun _ => neverNull_text,
    isRegular_identitySchema, fun _ => neverNull_record _ _ _,
    Spec.isRegular_schema, fun _ => neverNull_record _ _ _, trivial⟩

/-- Every configuration is read from what is written for it. -/
theorem readsBack_schema : schema.ReadsBack :=
  isRegular_schema.readsBack

/-- Every configuration is read from its text on lines of its own, which a line break closes. -/
theorem ofText?_pretty_line (c : MachineConfig) :
    schema.ofText? ((schema.toJson c).pretty ++ "\n") = some c := by
  have hbreak : ∀ d ∈ "\n".toList, Json.isBlank d := by decide
  exact Schema.ofText?_pretty_append readsBack_schema c hbreak

end MachineConfig

end MachineTuning
