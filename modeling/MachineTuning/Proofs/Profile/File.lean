import Mathlib.Data.List.Forall2
import MachineTuning.Profile.Load
import MachineTuning.Proofs.Outcome

namespace MachineTuning.Profile

/-!
# Profiles in files — when one is loaded, and what is wrong otherwise

* `Profile.load_eq_ok_iff` — what is loaded is what the text of the file spells;
* `Profile.load_eq_error_iff` — a file is not loaded if it cannot be read, if it is no text, or if
  its text does not spell a profile, and each of these is reported as such.
-/

variable {fs : FileSystem} {path : String}

/-- The file at a path holds a text that spells a profile. -/
def IsSpelledAt (fs : FileSystem) (path : String) (p : Profile) : Prop :=
  ∃ text, fs path = .ok (Text.utf8 text) ∧ Yaml.read schema text = .ok p

/-- A profile of two names, as YAML. -/
theorem read_twoNames :
    Yaml.read schema "metadata:\n  name: a\nspec:\n  cpu:\n    nonIsolated: b\n" =
      .ok (.new "a" "b") :=
  Outcome.toOption_eq_some_iff.1 (by decide +kernel)

/-- What is wrong with the file at a path. -/
inductive IsRefusedAt (fs : FileSystem) (path : String) : Failure → Prop
  | unreadable {cause : SystemError} : fs path = .error cause → IsRefusedAt fs path (.io cause)
  | notText {bytes : List UInt8} : fs path = .ok bytes → (∀ text, bytes ≠ Text.utf8 text) →
      IsRefusedAt fs path (.io .notUtf8)
  | malformed {text : String} : fs path = .ok (Text.utf8 text) →
      Yaml.read schema text = .error .malformed → IsRefusedAt fs path (.malformedProfile path)
  | unfit {text : String} {fault} : fs path = .ok (Text.utf8 text) →
      Yaml.read schema text = .error (.unfit fault) →
      IsRefusedAt fs path (.profile (path ++ ": " ++ fault.message))

/-- A text gives the profile that YAML reads from it. -/
theorem ofText_eq_ok_iff {text : String} {p : Profile} :
    ofText path text = .ok p ↔ Yaml.read schema text = .ok p := by
  rw [ofText]
  split <;> simp_all

/-- **A profile is loaded** from a file exactly if the text of the file spells it. -/
theorem load_eq_ok_iff {p : Profile} : load fs path = .ok p ↔ IsSpelledAt fs path p := by
  rw [load, Outcome.bind_eq_ok_iff]
  constructor
  · rintro ⟨bytes, hread, h⟩
    cases htext : Text.ofUtf8? bytes with
    | none => simp [htext] at h
    | some text =>
      obtain rfl := Text.ofUtf8?_eq_some_iff.1 htext
      simp only [htext] at h
      exact ⟨text, Outcome.mapError_eq_ok_iff.1 hread, ofText_eq_ok_iff.1 h⟩
  · rintro ⟨text, hread, hspelled⟩
    refine ⟨Text.utf8 text, Outcome.mapError_eq_ok_iff.2 hread, ?_⟩
    simp only [Text.ofUtf8?_utf8]
    exact ofText_eq_ok_iff.2 hspelled

/-- **A profile is not loaded** for one of these reasons, and the failure says for which. -/
theorem load_eq_error_iff {failure : Failure} :
    load fs path = .error failure ↔ IsRefusedAt fs path failure := by
  constructor
  · intro h
    rcases Outcome.bind_eq_error_iff.1 h with hread | ⟨bytes, hread, h⟩
    · obtain ⟨cause, hcause, rfl⟩ := Outcome.mapError_eq_error_iff.1 hread
      exact .unreadable hcause
    · -- The file is there: its bytes are no text, or the text is no document, or the document is no
      -- profile.
      have hread := Outcome.mapError_eq_ok_iff.1 hread
      cases htext : Text.ofUtf8? bytes with
      | none =>
        simp only [htext] at h
        obtain rfl := Except.error.inj h
        refine .notText hread fun text heq => ?_
        rw [Text.ofUtf8?_eq_some_iff.2 heq] at htext
        cases htext
      | some text =>
        obtain rfl := Text.ofUtf8?_eq_some_iff.1 htext
        simp only [htext] at h
        rw [ofText] at h
        split at h
        · cases h
        · obtain rfl := Except.error.inj h
          exact .malformed hread ‹_›
        · obtain rfl := Except.error.inj h
          exact .unfit hread ‹_›
  · have htext {text : String} (hread : fs path = .ok (Text.utf8 text)) :
        load fs path = ofText path text := by
      simp only [load, hread, Except.mapError, bind, Except.bind, Text.ofUtf8?_utf8]
    intro h
    cases h with
    | unreadable hread => simp only [load, hread, Except.mapError, bind, Except.bind]
    | @notText bytes hread hnone =>
      have hbytes : Text.ofUtf8? bytes = none :=
        Option.eq_none_iff_forall_ne_some.2 fun text heq =>
          hnone text (Text.ofUtf8?_eq_some_iff.1 heq)
      simp only [load, hread, Except.mapError, bind, Except.bind, hbytes]
    | malformed hread hspelled => rw [htext hread, ofText, hspelled]
    | unfit hread hspelled => rw [htext hread, ofText, hspelled]

end MachineTuning.Profile
