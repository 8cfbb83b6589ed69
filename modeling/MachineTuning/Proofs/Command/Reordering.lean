import MachineTuning.Proofs.Assets.History
import MachineTuning.Proofs.Command.Result
import MachineTuning.Proofs.Schema.Reordering

namespace MachineTuning

/-!
# Reordering — the order in which a profile is written does not matter

A profile that is written in another order is the same profile, and a configuration that is rendered
for it is the same to the byte, so that a cosmetic edit never reaches a node.

* `Profile.load_eq_ok_iff_document` — what is loaded is settled by the document that a text spells;
* `Invocation.agrees_render` — what is rendered is settled by the profile and the scripts;
* `Command.render_reordered` — so neither changes if members of mappings change places.
-/

/-- The text of the file at a path is this document. -/
def Yaml.Document.StandsAt (d : Yaml.Document) (fs : FileSystem) (path : String) : Prop :=
  ∃ text, fs path = .ok (Text.utf8 text) ∧ Yaml.Document.parse? text = some d

variable {fs fs' : FileSystem} {path path' assets : String} {p : Profile}

/-- **What is loaded** is what the document spells. -/
theorem Profile.load_eq_ok_iff_document {d : Yaml.Document} (h : d.StandsAt fs path) :
    Profile.load fs path = .ok p ↔ Profile.schema.ofNode d.anchors .root d.root = .ok p := by
  obtain ⟨text, hfile, hparse⟩ := h
  rw [Profile.load_eq_ok_iff]
  constructor
  · rintro ⟨text', hfile', hread⟩
    rw [hfile, Except.ok.injEq] at hfile'
    obtain rfl := Text.utf8_injective hfile'
    rw [Yaml.read, hparse] at hread
    exact Outcome.mapError_eq_ok_iff.1 hread
  · intro hread
    refine ⟨text, hfile, ?_⟩
    rw [Yaml.read, hparse]
    exact Outcome.mapError_eq_ok_iff.2 hread

namespace Command

/-- The scripts of an asset directory are the same in two file systems. -/
def SharesScripts (fs fs' : FileSystem) (assets : String) : Prop :=
  ∀ script ∈ Script.catalog, fs (Assets.scriptPath assets script) =
    fs' (Assets.scriptPath assets script)

/-- **What is rendered** for a profile is the same wherever the profile stands. -/
theorem Invocation.agrees_render (h : Profile.load fs path = .ok p)
    (h' : Profile.load fs' path' = .ok p) (hscripts : SharesScripts fs fs' assets) (format : Format)
    (debugging debugging' : Bool) (logSetting logSetting' : Option String) :
    (Invocation.outcome fs logSetting ⟨.render path assets format, debugging⟩).Agrees
      (Invocation.outcome fs' logSetting' ⟨.render path' assets format, debugging'⟩) := by
  have hload : ∀ script ∈ Script.catalog,
      Assets.load fs assets script = Assets.load fs' assets script := by
    intro script hscript
    rw [Assets.load, Assets.load, hscripts script hscript]
  have hbuild := (Assets.buildsAlike_of_load hload).build p
  have htranscript : (Action.render path assets format).transcript fs =
      (Action.render path' assets format).transcript fs' := by
    rw [Action.transcript_of_load h, Action.transcript_of_load h', Action.transcriptFor,
      Action.transcriptFor, Action.piecesFor, Action.piecesFor, hbuild]
  exact Invocation.agrees_of_transcript (by rw [htranscript]) (by rw [htranscript])

/-- **The order of a profile does not matter.**  From a document without aliases in which no mapping
    has a key twice, and from the same document with the members of its mappings in another order,
    the same profile is read.  So the same profile is loaded from two files with such documents, and
    with the same scripts the same is rendered for both, in either format. -/
theorem render_reordered {d d' : Yaml.Document} (hreordered : d.root.Reordered d'.root)
    (hsimple : d.root.IsSimple) (hp : Profile.schema.ofNode d.anchors .root d.root = .ok p) :
    Profile.schema.ofNode d'.anchors .root d'.root = .ok p ∧
      ∀ fs fs' path path', d.StandsAt fs path → d'.StandsAt fs' path' →
        Profile.load fs path = .ok p ∧ Profile.load fs' path' = .ok p ∧
        ∀ assets, SharesScripts fs fs' assets →
          ∀ format debugging debugging' logSetting logSetting',
            (Invocation.outcome fs logSetting ⟨.render path assets format, debugging⟩).Agrees
              (Invocation.outcome fs' logSetting' ⟨.render path' assets format, debugging'⟩) := by
  have hp' : Profile.schema.ofNode d'.anchors .root d'.root = .ok p :=
    Profile.schema.ignoresOrder hreordered hsimple hp d'.anchors .root
  refine ⟨hp', fun fs fs' path path' hfile hfile' => ?_⟩
  have hload := (Profile.load_eq_ok_iff_document hfile).2 hp
  have hload' := (Profile.load_eq_ok_iff_document hfile').2 hp'
  exact ⟨hload, hload', fun assets hscripts => Invocation.agrees_render hload hload' hscripts⟩

/-- A profile with two labels, and the same with every mapping the other way round. -/
theorem render_reordered_labels :
    let word (offset line column : Nat) (s : String) : Yaml.Node :=
      .scalar { mark := ⟨offset, line, column⟩ } .plain s
    let block (offset line column : Nat) (members : List (Yaml.Node × Yaml.Node)) : Yaml.Node :=
      .mapping { mark := ⟨offset, line, column⟩ } members
    let d : Yaml.Document := ⟨block 0 0 0 [
      (word 0 0 0 "metadata", block 12 1 2 [(word 12 1 2 "name", word 18 1 8 "a")]),
      (word 20 2 0 "spec", block 28 3 2 [
        (word 28 3 2 "cpu", block 37 4 4 [(word 37 4 4 "nonIsolated", word 50 4 17 "b")]),
        (word 54 5 2 "machineConfigLabel", block 78 6 4 [
          (word 78 6 4 "x", word 81 6 7 "y"), (word 87 7 4 "u", word 90 7 7 "v")])])], []⟩
    let d' : Yaml.Document := ⟨block 0 0 0 [
      (word 0 0 0 "spec", block 8 1 2 [
        (word 8 1 2 "machineConfigLabel", block 32 2 4 [
          (word 32 2 4 "u", word 35 2 7 "v"), (word 41 3 4 "x", word 44 3 7 "y")]),
        (word 48 4 2 "cpu", block 57 5 4 [(word 57 5 4 "nonIsolated", word 70 5 17 "b")])]),
      (word 72 6 0 "metadata", block 84 7 2 [(word 84 7 2 "name", word 90 7 8 "a")])], []⟩
    let p := (Profile.new "a" "b").withLabels (.ofList [("x", "y"), ("u", "v")])
    let fs : FileSystem := fun path =>
      if path = "p.yaml" then .ok (Text.utf8 ("metadata:\n  name: a\n" ++
        "spec:\n  cpu:\n    nonIsolated: b\n  machineConfigLabel:\n    x: y\n    u: v\n"))
      else .ok (Text.utf8 ("spec:\n  machineConfigLabel:\n    u: v\n    x: y\n" ++
        "  cpu:\n    nonIsolated: b\nmetadata:\n  name: a\n"))
    d.root.Reordered d'.root ∧ d.root.IsSimple ∧
      Profile.schema.ofNode d.anchors .root d.root = .ok p ∧
      d.StandsAt fs "p.yaml" ∧ d'.StandsAt fs "q.yaml" ∧ Profile.load fs "q.yaml" = .ok p ∧
      (Invocation.outcome fs none ⟨.render "p.yaml" "assets" .yaml, false⟩).Agrees
        (Invocation.outcome fs (some "trace") ⟨.render "q.yaml" "assets" .yaml, true⟩) := by
  intro word block d d' p fs
  -- Each mapping of two is swapped, from the outside in.
  have hreordered : d.root.Reordered d'.root := by
    refine .mapping rfl ?_ (.swap _ _ _)
    refine .cons (.scalar rfl) ?metadata (.cons (.scalar rfl) ?spec .nil)
    case metadata =>
      refine .mapping rfl ?_ (.refl _)
      exact .cons (.scalar rfl) (.scalar rfl) .nil
    case spec =>
      refine .mapping rfl ?_ (.swap _ _ _)
      refine .cons (.scalar rfl) ?cpu (.cons (.scalar rfl) ?labels .nil)
      case cpu =>
        refine .mapping rfl ?_ (.refl _)
        exact .cons (.scalar rfl) (.scalar rfl) .nil
      case labels =>
        refine .mapping rfl ?_ (.swap _ _ _)
        exact .cons (.scalar rfl) (.scalar rfl) (.cons (.scalar rfl) (.scalar rfl) .nil)
  have hsimple : d.root.IsSimple := by
    simp [d, block, word, Yaml.Node.IsSimple, Yaml.Node.AreSimpleMembers, Yaml.Node.keyTexts,
      Yaml.Node.text?]
  have hp : Profile.schema.ofNode d.anchors .root d.root = .ok p :=
    Outcome.toOption_eq_some_iff.1 (by decide +kernel)
  have hfile : d.StandsAt fs "p.yaml" := ⟨_, if_pos rfl, by decide +kernel⟩
  have hfile' : d'.StandsAt fs "q.yaml" := ⟨_, if_neg (by decide), by decide +kernel⟩
  obtain ⟨-, hfiles⟩ := render_reordered hreordered hsimple hp
  obtain ⟨-, hload', hagrees⟩ := hfiles fs fs "p.yaml" "q.yaml" hfile hfile'
  exact ⟨hreordered, hsimple, hp, hfile, hfile', hload',
    hagrees "assets" (fun _ _ => rfl) .yaml false true none (some "trace")⟩

end Command

end MachineTuning
