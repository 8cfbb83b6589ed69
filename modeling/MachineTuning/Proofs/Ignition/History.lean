import Mathlib.Data.List.DropRight
import MachineTuning.Ignition.Edit
import MachineTuning.Proofs.DataUri

namespace MachineTuning.Ignition

/-!
# Ignition documents — what a history of edits leaves behind

A document grows by files and services and may be replaced on the way by one that is loaded from a
JSON value.

* `edited_eq` — what counts are the document that was loaded last and the steps since;
* `Document.file?_edited`, `Document.service?_edited` — an entry that was found is found again after
  more files and services were added;
* `edited_follows` — both, for every history of a new document, with what its files hold.
-/

/-! ### Single steps -/

/-- The document that takes the place of another one in a step, if it can be loaded. -/
def Edit.loaded? : Edit → Option Document
  | .replace value => (Document.schema.ofJson value).toOption
  | _ => none

/-- The file that a step adds. -/
def Edit.file? : Edit → Option File
  | .addFile filesystem path content mode => some ⟨filesystem, path, DataUri.encode content, mode⟩
  | _ => none

/-- The service that a step adds. -/
def Edit.service? : Edit → Option Service
  | .addService service => some service
  | _ => none

namespace Document

variable {d loaded : Document} {e : Edit} {edits : List Edit}

/-- A document that can be loaded takes the place of the one before. -/
theorem edit_of_loaded (h : e.loaded? = some loaded) : d.edit e = loaded := by
  cases e with
  | replace value =>
    rw [edit, edit?]
    cases hvalue : schema.ofJson value with
    | error mismatch => simp [Edit.loaded?, hvalue, Except.toOption] at h
    | ok loaded' => simpa [Edit.loaded?, hvalue, Except.toOption] using h
  | addFile => cases h
  | addService => cases h

/-- A step that loads nothing adds what it has to add; a value that cannot be loaded adds
    nothing. -/
theorem edit_of_not_loaded (h : e.loaded? = none) :
    d.edit e = ⟨d.version, d.files ++ [e].filterMap Edit.file?,
      d.services ++ [e].filterMap Edit.service?⟩ := by
  cases e with
  | replace value =>
    rw [edit, edit?]
    cases hvalue : schema.ofJson value with
    | error mismatch => simp [List.filterMap_cons, Edit.file?, Edit.service?]
    | ok loaded => simp [Edit.loaded?, hvalue, Except.toOption] at h
  | addFile => simp [edit, edit?, addFile, Edit.file?, Edit.service?]
  | addService => simp [edit, edit?, addService, Edit.file?, Edit.service?]

/-- The last step is taken behind all the others. -/
theorem edited_concat (d : Document) (edits : List Edit) (e : Edit) :
    d.edited (edits ++ [e]) = (d.edited edits).edit e := by
  rw [edited, List.foldl_append]
  rfl

end Document

/-! ### Histories -/

/-- The document that was loaded last, or the one at the start. -/
def lastLoaded (start : Document) (edits : List Edit) : Document :=
  ((edits.filterMap Edit.loaded?).getLast?).getD start

/-- The steps behind the one that loaded a document last. -/
def sinceLoaded (edits : List Edit) : List Edit :=
  edits.rtakeWhile (·.loaded?.isNone)

section

variable {start loaded : Document} {e : Edit} {edits : List Edit}

/-- A document that was just loaded is the last one. -/
theorem lastLoaded_concat_of_loaded (h : e.loaded? = some loaded) :
    lastLoaded start (edits ++ [e]) = loaded := by
  simp [lastLoaded, h]

/-- A step that loads nothing leaves the last loaded document as it was. -/
theorem lastLoaded_concat_of_not_loaded (h : e.loaded? = none) :
    lastLoaded start (edits ++ [e]) = lastLoaded start edits := by
  simp [lastLoaded, h]

/-- Nothing has happened since a document was just loaded. -/
theorem sinceLoaded_concat_of_loaded (h : e.loaded? = some loaded) :
    sinceLoaded (edits ++ [e]) = [] :=
  List.rtakeWhile_concat_neg _ _ _ (by simp [h])

/-- A step that loads nothing comes behind those since the last document. -/
theorem sinceLoaded_concat_of_not_loaded (h : e.loaded? = none) :
    sinceLoaded (edits ++ [e]) = sinceLoaded edits ++ [e] :=
  List.rtakeWhile_concat_pos _ _ _ (by simp [h])

/-- **The document after a history** is the one that was loaded last with all that was added
    since. -/
theorem edited_eq (start : Document) (edits : List Edit) : start.edited edits =
    ⟨(lastLoaded start edits).version,
      (lastLoaded start edits).files ++ (sinceLoaded edits).filterMap Edit.file?,
      (lastLoaded start edits).services ++ (sinceLoaded edits).filterMap Edit.service?⟩ := by
  -- The induction is from the back: a step that loads makes all the earlier ones irrelevant.
  induction edits using List.reverseRecOn with
  | nil => simp [Document.edited, lastLoaded, sinceLoaded]
  | append_singleton edits e ih =>
    rw [Document.edited_concat]
    cases h : e.loaded? with
    | some loaded =>
      rw [Document.edit_of_loaded h, lastLoaded_concat_of_loaded h, sinceLoaded_concat_of_loaded h]
      simp
    | none =>
      rw [Document.edit_of_not_loaded h, lastLoaded_concat_of_not_loaded h,
        sinceLoaded_concat_of_not_loaded h, ih, List.filterMap_append, List.filterMap_append]
      simp only [List.append_assoc]

end

namespace Document

/-! ### Look-ups -/

/-- Steps that load nothing leave what is there in front of what they add. -/
theorem edited_of_not_loaded (d : Document) {later : List Edit}
    (h : ∀ e ∈ later, e.loaded? = none) : d.edited later =
      ⟨d.version, d.files ++ later.filterMap Edit.file?,
        d.services ++ later.filterMap Edit.service?⟩ := by
  have hlast : lastLoaded d later = d := by
    rw [lastLoaded, List.filterMap_eq_nil_iff.2 h]
    rfl
  have hsince : sinceLoaded later = later := by
    rw [sinceLoaded, List.rtakeWhile_eq_self_iff]
    intro e he
    rw [h e he]
    rfl
  rw [edited_eq, hlast, hsince]

/-- A file that was found is found again after steps that load nothing. -/
theorem file?_edited {d : Document} {later : List Edit} (h : ∀ e ∈ later, e.loaded? = none)
    {path : String} {file : File} (hfile : d.file? path = some file) :
    (d.edited later).file? path = some file := by
  rw [file?] at hfile
  rw [d.edited_of_not_loaded h, file?, List.find?_append, hfile]
  rfl

/-- A service that was found is found again after steps that load nothing. -/
theorem service?_edited {d : Document} {later : List Edit} (h : ∀ e ∈ later, e.loaded? = none)
    {name : String} {service : Service} (hservice : d.service? name = some service) :
    (d.edited later).service? name = some service := by
  rw [service?] at hservice
  rw [d.edited_of_not_loaded h, service?, List.find?_append, hservice]
  rfl

/-- The first entry with a property has none with it in front. -/
theorem find?_eq_some_iff_first {α : Type} {p : α → Prop} [DecidablePred p] {l : List α} {a : α} :
    l.find? (fun b => p b) = some a ↔
      ∃ before after, l = before ++ a :: after ∧ p a ∧ ∀ b ∈ before, ¬ p b := by
  rw [List.find?_eq_some_iff_append]
  constructor
  · rintro ⟨ha, before, after, hl, hbefore⟩
    exact ⟨before, after, hl, of_decide_eq_true ha, fun b hb => by simpa using hbefore b hb⟩
  · rintro ⟨before, after, hl, ha, hbefore⟩
    exact ⟨decide_eq_true ha, before, after, hl, fun b hb => by simpa using hbefore b hb⟩

/-- A look-up gives the first entry of a path or a name, and none exactly if there is none. -/
structure FindsFirst (d : Document) : Prop where
  file_iff : ∀ path file, d.file? path = some file ↔ ∃ before after,
    d.files = before ++ file :: after ∧ file.path = path ∧ ∀ other ∈ before, other.path ≠ path
  noFile_iff : ∀ path, d.file? path = none ↔ ∀ file ∈ d.files, file.path ≠ path
  service_iff : ∀ name service, d.service? name = some service ↔ ∃ before after,
    d.services = before ++ service :: after ∧ service.name = name ∧
      ∀ other ∈ before, other.name ≠ name
  noService_iff : ∀ name, d.service? name = none ↔ ∀ service ∈ d.services, service.name ≠ name

/-- Look-ups in a document give the first match. -/
theorem findsFirst (d : Document) : d.FindsFirst where
  file_iff _ _ := find?_eq_some_iff_first
  noFile_iff path := by simp [file?]
  service_iff _ _ := find?_eq_some_iff_first
  noService_iff name := by simp [service?]

end Document

/-! ### Files that were added -/

/-- A file that is found was in the document that was loaded last, or added since. -/
theorem origin_of_file? {start : Document} {edits : List Edit} {path : String} {file : File}
    (h : (start.edited edits).file? path = some file) :
    (lastLoaded start edits).file? path = some file ∨
      ∃ e ∈ sinceLoaded edits, e.file? = some file := by
  rw [edited_eq, Document.file?, List.find?_append, Option.or_eq_some_iff] at h
  rcases h with h | ⟨-, h⟩
  · exact .inl h
  · exact .inr (List.mem_filterMap.1 (List.mem_of_find?_eq_some h))

/-- A file that was added holds the bytes that it was added with. -/
theorem content_of_addFile (filesystem path : String) (content : List UInt8)
    (mode : Option UInt32) :
    File.content ⟨filesystem, path, DataUri.encode content, mode⟩ = .ok content :=
  DataUri.decode_encode content

/-! ### Every history -/

/-- A document is what a history makes of the one at its start: the document that was loaded last
    with the files and services that were added since, in order. -/
structure Document.Follows (start : Document) (edits : List Edit) (d : Document) : Prop where
  version : d.version = (lastLoaded start edits).version
  files : d.files = (lastLoaded start edits).files ++ (sinceLoaded edits).filterMap Edit.file?
  services : d.services =
    (lastLoaded start edits).services ++ (sinceLoaded edits).filterMap Edit.service?
  origin : ∀ path file, d.file? path = some file →
    (lastLoaded start edits).file? path = some file ∨ ∃ e ∈ sinceLoaded edits, e.file? = some file
  content : ∀ path file, d.file? path = some file → ∀ filesystem content mode,
    Edit.addFile filesystem path content mode ∈ edits →
    file = ⟨filesystem, path, DataUri.encode content, mode⟩ → file.content = .ok content

/-- A history leads to a document that follows it, whatever it starts with. -/
theorem Document.follows_edited (start : Document) (edits : List Edit) :
    Follows start edits (start.edited edits) where
  version := by rw [edited_eq]
  files := by rw [edited_eq]
  services := by rw [edited_eq]
  origin _ _ := origin_of_file?
  content := by
    rintro path file - filesystem content mode - rfl
    exact content_of_addFile filesystem path content mode

/-- **Every history of a new document**, which has its version and neither files nor services.
    After any steps the document is the one that was loaded last, or else the new one, with what was
    added since, and look-ups give the first entry of a path or a name.  A value that cannot be
    loaded changes nothing, and an entry that is found stays the one that is found until another
    document is loaded. -/
theorem edited_follows (version : String) (edits : List Edit) :
    let d := (Document.new version).edited edits
    Document.Follows ⟨version, [], []⟩ edits d ∧ d.FindsFirst ∧
    (∀ value mismatch, Document.schema.ofJson value = .error mismatch →
      (Document.new version).edited (edits ++ [.replace value]) = d) ∧
    ∀ later, (∀ e ∈ later, e.loaded? = none) →
      (∀ path file, d.file? path = some file →
        ((Document.new version).edited (edits ++ later)).file? path = some file) ∧
      ∀ name service, d.service? name = some service →
        ((Document.new version).edited (edits ++ later)).service? name = some service := by
  intro d
  refine ⟨Document.follows_edited _ edits, d.findsFirst, ?_, ?_⟩
  · intro value mismatch hvalue
    -- A document that cannot be loaded leaves no trace in what was loaded last or pushed since.
    have hnone : Edit.loaded? (.replace value) = none := by
      simp [Edit.loaded?, hvalue, Except.toOption]
    rw [Document.edited_concat, Document.edit_of_not_loaded hnone]
    simp [Edit.file?, Edit.service?, List.filterMap_cons, d]
  · intro later hlater
    -- The later steps only push, and what is pushed goes behind what is found first.
    have happend : (Document.new version).edited (edits ++ later) = d.edited later :=
      List.foldl_append
    rw [happend]
    exact ⟨fun _ _ => Document.file?_edited hlater, fun _ _ => Document.service?_edited hlater⟩

/-- A document with a file is loaded, null cannot be, and another file for the same path comes
    later. -/
theorem edited_follows_samePath :
    let value : Json := .array [.array [.text "2"],
      .array [.array [.array [.text "root", .text "/a", .array [.text "here"]]]], .array []]
    let edits : List Edit := [.addService ⟨"s", none, none⟩, .replace value, .replace .null]
    let later : List Edit := [.addFile "root" "/a" [0xff] (some 1), .replace .null]
    let d := (Document.new "1").edited edits
    (∃ mismatch, Document.schema.ofJson .null = .error mismatch) ∧
      (∀ e ∈ later, e.loaded? = none) ∧ d.file? "/a" = some ⟨"root", "/a", "here", none⟩ ∧
      (Document.new "1").edited (edits ++ [.replace .null]) = d ∧
      ((Document.new "1").edited (edits ++ later)).file? "/a" =
        some ⟨"root", "/a", "here", none⟩ := by
  intro value edits later d
  obtain ⟨mismatch, hmismatch⟩ : ∃ mismatch, Document.schema.ofJson .null = .error mismatch :=
    ⟨_, rfl⟩
  have hlater : ∀ e ∈ later, e.loaded? = none := by
    intro e he
    rcases List.mem_cons.1 he with rfl | he
    · rfl
    · rw [List.mem_singleton.1 he]
      rfl
  have hfound : d.file? "/a" = some ⟨"root", "/a", "here", none⟩ := rfl
  obtain ⟨-, -, hsame, hkeeps⟩ := edited_follows "1" edits
  exact ⟨⟨mismatch, hmismatch⟩, hlater, hfound, hsame .null mismatch hmismatch,
    (hkeeps later hlater).1 "/a" _ hfound⟩

end MachineTuning.Ignition
