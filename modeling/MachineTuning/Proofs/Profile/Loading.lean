import MachineTuning.Profile.Load
import MachineTuning.Proofs.Profile.Texts
import MachineTuning.Proofs.Schema.NodeReadBack

namespace MachineTuning

/-!
# Loading — profiles from JSON documents

One reader loads profiles from YAML and from JSON documents.  It loads what stands in a JSON
document as long as YAML takes the texts of the profile as they are spelled there.  There are texts
that it does not take at all, and texts that it alters.

* `Profile.load_compact`, `Profile.load_compact_of_not_isDocument` — what is loaded in each case;
* `Profile.load_compact_eq_ok_iff` — the profiles that are loaded as themselves.
-/

namespace Yaml

/-- A YAML document may hold these characters, with controls escaped by JSON. -/
def IsPermittedText (s : String) : Prop :=
  ∀ c ∈ s.toList, c.toNat < 0x20 ∨ isPermitted c

/-- Whether YAML permits all characters of a text can be computed. -/
instance (s : String) : Decidable (IsPermittedText s) :=
  inferInstanceAs (Decidable (∀ c ∈ s.toList, c.toNat < 0x20 ∨ isPermitted c))

/-- A text that YAML takes as it is where JSON has written it. -/
structure IsVerbatim (s : String) : Prop where
  permitted : IsPermittedText s
  kept : IsKept s.toList

/-- A key that YAML takes where JSON has written it. -/
structure IsVerbatimKey (key : String) : Prop where
  permitted : IsPermittedText key
  fits : Scanner.fitsKey key

/-- Without the characters that YAML folds, a text is taken as it is. -/
theorem isVerbatim_of_forall {s : String} (hpermitted : IsPermittedText s)
    (h : ∀ c ∈ s.toList, c ≠ '\u0085' ∧ isSeparator c = false) : IsVerbatim s :=
  ⟨hpermitted, isKept_of_forall h⟩

/-- A text is kept as it is exactly if it can be read and is read as itself. -/
theorem isKept_iff {s : String} : IsKept s.toList ↔ IsReadable s ∧ readText s = s := by
  rw [← reread_eq_some_self_iff]
  constructor
  · intro hread
    rw [IsReadable, readText_eq hread, hread]
    exact ⟨rfl, String.ofList_toList⟩
  · rintro ⟨hreadable, hself⟩
    obtain ⟨read, hread⟩ := Option.isSome_iff_exists.1 hreadable
    rw [readText_eq hread] at hself
    rw [hread, ← hself, String.toList_ofList]

/-- The text of an exact value holds permitted characters exactly if its texts and keys do. -/
theorem forall_mem_print_isPermitted_iff {v : Json} (h : v.IsExact) :
    (∀ c ∈ Json.print .compact 0 v, isPermitted c) ↔
      (∀ s ∈ v.texts, IsPermittedText s) ∧ ∀ key ∈ v.keys, IsPermittedText key := by
  refine Json.settledBy_print (p := (isPermitted ·)) (fun c hlower hupper => ?_) h 0
  simp [isPermitted, hlower, Nat.le_of_lt_succ hupper]

end Yaml

namespace Profile

open Yaml

variable {fs : FileSystem} {path : String} {p : Profile}

/-- Whether the document of a profile is one of YAML is settled by its texts and the keys of its
    labels. -/
theorem isDocument_toJson_iff :
    IsDocument (schema.toJson p) ↔
      (∀ s ∈ p.texts, IsPermittedText s ∧ IsReadable s) ∧
        ∀ key ∈ p.labelKeys, IsVerbatimKey key := by
  -- The names of the members are fixed and none of them is in the way; the labels are the keys that
  -- are left.
  have hnames : ∀ key ∈ memberNames, IsPermittedText key ∧ Scanner.fitsKey key := by decide
  have hpermitted := forall_mem_keys_iff (fun key hkey => (hnames key hkey).1) p
  have hfits := forall_mem_keys_iff (fun key hkey => (hnames key hkey).2) p
  have hprint := forall_mem_print_isPermitted_iff (schema.isExact_toJson p)
  rw [texts_toJson, hpermitted] at hprint
  constructor
  · rintro ⟨hprinted, htexts, hkeys⟩
    obtain ⟨htexts', hkeys'⟩ := hprint.1 hprinted
    rw [texts_toJson] at htexts
    exact ⟨fun s hs => ⟨htexts' s hs, htexts s hs⟩,
      fun key hkey => ⟨hkeys' key hkey, hfits.1 hkeys key hkey⟩⟩
  · rintro ⟨htexts, hkeys⟩
    refine ⟨hprint.2 ⟨fun s hs => (htexts s hs).1, fun key hkey => (hkeys key hkey).permitted⟩, ?_,
      hfits.2 fun key hkey => (hkeys key hkey).fits⟩
    rw [texts_toJson]
    exact fun s hs => (htexts s hs).2

section Compact

variable (h : fs path = .ok (Text.utf8 (schema.toJson p).compact))
include h

/-- What is loaded from a file depends on its text alone. -/
theorem load_eq_ofText : load fs path = ofText path (schema.toJson p).compact := by
  simp only [load, h, Except.mapError, bind, Except.bind, Text.ofUtf8?_utf8]

/-- **A profile is loaded from its JSON document** with its texts as YAML reads them, if the
    document is one of YAML. -/
theorem load_compact (hdocument : IsDocument (schema.toJson p)) :
    load fs path = .ok (p.mapTexts readText) := by
  have hread : Yaml.read schema (schema.toJson p).compact = .ok (p.mapTexts readText) :=
    Schema.read_compact isRegular_schema.readsNodes hdocument (p.toJson_mapTexts readText)
  rw [load_eq_ofText h, ofText, hread]

/-- If it is none, the profile is not loaded at all. -/
theorem load_compact_of_not_isDocument (hdocument : ¬IsDocument (schema.toJson p)) :
    load fs path = .error (.malformedProfile path) := by
  have hread : Yaml.read schema (schema.toJson p).compact = .error .malformed :=
    Schema.read_compact_of_not_isDocument hdocument
  rw [load_eq_ofText h, ofText, hread]

/-- **A profile is loaded as itself from its JSON document** if and only if YAML takes its texts and
    the keys of its labels as they are. -/
theorem load_compact_eq_ok_iff :
    load fs path = .ok p ↔
      (∀ s ∈ p.texts, IsVerbatim s) ∧ ∀ key ∈ p.labelKeys, IsVerbatimKey key := by
  by_cases hdocument : IsDocument (schema.toJson p)
  · obtain ⟨htexts, hkeys⟩ := isDocument_toJson_iff.1 hdocument
    rw [load_compact h hdocument, Except.ok.injEq, mapTexts_eq_self_iff]
    constructor
    · intro hself
      exact ⟨fun s hs => ⟨(htexts s hs).1, isKept_iff.2 ⟨(htexts s hs).2, hself s hs⟩⟩, hkeys⟩
    · rintro ⟨hverbatim, -⟩ s hs
      exact (isKept_iff.1 (hverbatim s hs).kept).2
  · rw [load_compact_of_not_isDocument h hdocument]
    refine iff_of_false nofun fun ⟨hverbatim, hkeys⟩ =>
      hdocument (isDocument_toJson_iff.2 ⟨?_, hkeys⟩)
    exact fun s hs => ⟨(hverbatim s hs).permitted, (isKept_iff.1 (hverbatim s hs).kept).1⟩

end Compact

/-- Escaped characters, quotes and blanks at the borders do no harm. -/
theorem load_compact_eq_ok_iff_escapes :
    let p := (Profile.new "tab\t\"quoted\"\n" "0-1").withLabels (.ofList [("node\\role", " ä ")])
    let fs : FileSystem := fun _ => .ok (Text.utf8 (schema.toJson p).compact)
    fs "profile.json" = .ok (Text.utf8 (schema.toJson p).compact) ∧
      load fs "profile.json" = .ok p := by
  intro p fs
  have hfile : fs "profile.json" = .ok (Text.utf8 (schema.toJson p).compact) := rfl
  have htexts : ∀ s ∈ p.texts, IsPermittedText s ∧
      ∀ c ∈ s.toList, c ≠ '\u0085' ∧ isSeparator c = false := by decide
  have hkeys : ∀ key ∈ p.labelKeys, IsPermittedText key ∧ Scanner.fitsKey key := by decide
  refine ⟨hfile, (load_compact_eq_ok_iff hfile).2 ⟨fun s hs => ?_, fun key hkey => ?_⟩⟩
  · exact isVerbatim_of_forall (htexts s hs).1 (htexts s hs).2
  · exact ⟨(hkeys key hkey).1, (hkeys key hkey).2⟩

/-- A next-line character in a name is loaded as a space, and a profile with a delete character is
    not loaded at all. -/
theorem load_compact_altered_or_refused :
    let file (p : Profile) : FileSystem := fun _ => .ok (Text.utf8 (schema.toJson p).compact)
    let p := Profile.new "a\u0085b" "0-1"
    let q := Profile.new "a\u007fb" "0-1"
    load (file p) "profile.json" = .ok (.new "a b" "0-1") ∧ load (file p) "profile.json" ≠ .ok p ∧
      load (file q) "profile.json" = .error (.malformedProfile "profile.json") := by
  intro file p q
  have hp : load (file p) "profile.json" = .ok (.new "a b" "0-1") := by
    have hfile : file p "profile.json" = .ok (Text.utf8 (schema.toJson p).compact) := rfl
    -- The next-line character is folded into a space.
    have hname : reread "a\u0085b".toList = some "a b".toList := by decide +kernel
    have hcpus : reread "0-1".toList = some "0-1".toList := by decide +kernel
    have hpermitted : ∀ s ∈ p.texts, IsPermittedText s := by decide
    have hreadable : ∀ s ∈ ["a\u0085b", "0-1"], IsReadable s := by
      rw [List.forall_mem_cons, List.forall_mem_singleton, IsReadable, IsReadable, hname, hcpus]
      exact ⟨rfl, rfl⟩
    have hdocument : IsDocument (schema.toJson p) :=
      isDocument_toJson_iff.2 ⟨fun s hs => ⟨hpermitted s hs, hreadable s hs⟩,
        List.forall_mem_nil _⟩
    have hread : p.mapTexts readText = .new "a b" "0-1" := by
      simp [p, mapTexts, new, TuningSpec.mapTexts, CpuPartition.mapTexts, readText_eq hname,
        readText_eq hcpus]
    rw [load_compact hfile hdocument, hread]
  have hq : load (file q) "profile.json" = .error (.malformedProfile "profile.json") := by
    have hfile : file q "profile.json" = .ok (Text.utf8 (schema.toJson q).compact) := rfl
    refine load_compact_of_not_isDocument hfile fun hdocument => ?_
    obtain ⟨htexts, -⟩ := isDocument_toJson_iff.1 hdocument
    -- A document may not hold the delete character at all.
    have hpermitted : IsPermittedText "a\u007fb" := (htexts _ (by decide)).1
    revert hpermitted
    decide
  refine ⟨hp, ?_, hq⟩
  rw [hp]
  decide

end Profile

end MachineTuning
