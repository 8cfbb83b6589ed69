import MachineTuning.Command.Run
import MachineTuning.Proofs.MachineConfig.Content
import MachineTuning.Proofs.Outcome
import MachineTuning.Proofs.UnitFile.Stream

namespace MachineTuning.Command

/-!
# Transcripts — what was printed before a failure

An action prints piece by piece, and a piece that cannot be made ends it, whatever has been printed
by then.  Between the pieces of the services unit files are rendered, which never fails.

* `Transcript.ofPieces_map_ok` — pieces that can all be made are printed one behind the other;
* `unitsText_eq` — the services, line by line;
* `Action.transcriptFor_units`, `Action.transcriptFor_kernelArguments` — so the services and the
  kernel arguments are printed whole;
* `Action.transcriptFor_render_eq_iff`, `Action.transcriptFor_render_of_error` — a configuration is
  printed whole or not at all.
-/

/-- Pieces that can all be made are printed one behind the other. -/
theorem Transcript.ofPieces_map_ok (pieces : List String) :
    ofPieces (pieces.map .ok) = ⟨String.join pieces, none⟩ := by
  induction pieces with
  | nil => rfl
  | cons piece pieces ih => rw [List.map_cons, ofPieces, ih, String.join_cons]

/-! ### Services -/

/-- A service as text: its name in a comment, then its unit file. -/
def serviceText (service : String × List Directive) : String :=
  "# " ++ Script.serviceName service.1 ++ "\n" ++ UnitFile.text service.2

/-- The tuning services as text, with an empty line between two of them. -/
def unitsText (housekeeping : String) : String :=
  "\n".intercalate ((UnitFile.tuning housekeeping).map serviceText)

/-- The services that are shown are those that are installed. -/
theorem shownServices_eq_tuning (housekeeping : String) :
    shownServices housekeeping = UnitFile.tuning housekeeping := rfl

/-- The lines in which the services are shown. -/
def serviceLines (housekeeping : String) : List String :=
  "# pre-boot-tuning.service" :: (UnitFile.tuningLines housekeeping ++
    "" :: "# reboot.service" :: UnitFile.rebootLines)

/-- **The services as text**, line by line. -/
theorem unitsText_eq (housekeeping : String) :
    unitsText housekeeping = UnitFile.unlines (serviceLines housekeeping) := by
  have hcons (line : String) (lines : List String) :
      UnitFile.unlines (line :: lines) = line ++ "\n" ++ UnitFile.unlines lines := by
    rw [UnitFile.unlines, List.map_cons, String.join_cons]
    rfl
  have htexts : unitsText housekeeping =
      "# pre-boot-tuning.service\n" ++ UnitFile.text (UnitFile.preBootTuning housekeeping) ++
        "\n" ++ ("# reboot.service\n" ++ UnitFile.text UnitFile.reboot) := by
    rw [unitsText, UnitFile.tuning, List.map_cons, List.map_singleton,
      String.intercalate_cons_cons, String.intercalate_singleton]
    rfl
  rw [htexts, serviceLines, hcons, UnitFile.unlines_append, hcons, hcons,
    UnitFile.text_preBootTuning_eq, UnitFile.text_reboot_eq]
  simp [String.append_assoc]

/-- Texts with a separator between two of them: the separator stands in front of all but one. -/
theorem intercalate_cons_eq (separator first : String) (rest : List String) :
    separator.intercalate (first :: rest) =
      first ++ String.join (rest.map (separator ++ ·)) := by
  induction rest generalizing first with
  | nil => simp
  | cons next rest ih =>
    rw [String.intercalate_cons_cons, ih, List.map_cons, String.join_cons]
    simp only [String.append_assoc]

/-- The pieces of a service can be made, as its unit file can be rendered. -/
theorem servicePieces_eq (service : String × List Directive) : servicePieces service =
    ["# " ++ Script.serviceName service.1 ++ "\n", UnitFile.text service.2].map .ok := by
  rw [servicePieces, UnitFile.render_eq_ok]
  rfl

/-- **Services are printed whole.** -/
theorem ofPieces_servicesPieces (services : List (String × List Directive)) :
    Transcript.ofPieces (servicesPieces services) =
      ⟨"\n".intercalate (services.map serviceText), none⟩ := by
  cases services with
  | nil => rfl
  | cons service services =>
    -- A blank line goes in front of every service but the first: the first is set apart and the
    -- induction is on the others.
    let pieces (service : String × List Directive) : List String :=
      ["# " ++ Script.serviceName service.1 ++ "\n", UnitFile.text service.2]
    have hjoin : String.join (services.flatMap fun next => "\n" :: pieces next) =
        String.join ((services.map serviceText).map ("\n" ++ ·)) := by
      induction services with
      | nil => rfl
      | cons next services ih =>
        rw [List.flatMap_cons, String.join_append, ih]
        simp [pieces, serviceText, String.append_assoc]
    have hpieces : servicesPieces (service :: services) =
        (pieces service ++ services.flatMap fun next => "\n" :: pieces next).map .ok := by
      simp only [servicesPieces, servicePieces_eq, List.map_append, List.map_flatMap,
        List.map_cons, pieces]
    rw [hpieces, Transcript.ofPieces_map_ok, String.join_append, hjoin, List.map_cons,
      intercalate_cons_eq]
    simp [pieces, serviceText]

namespace Action

variable {fs : FileSystem} {p : Profile} {a : Action} {text : String}

/-- The services are printed whole. -/
theorem transcriptFor_units (fs : FileSystem) (p : Profile) (profile : String) :
    (Action.units profile).transcriptFor fs p = ⟨unitsText p.spec.cpus.housekeeping, none⟩ := by
  rw [transcriptFor, piecesFor, ofPieces_servicesPieces, shownServices_eq_tuning]
  rfl

/-- The kernel arguments are printed whole. -/
theorem transcriptFor_kernelArguments (fs : FileSystem) (p : Profile) (profile : String)
    (oneLine : Bool) : (Action.kernelArguments profile oneLine).transcriptFor fs p =
      ⟨String.join (kernelArgumentsPieces oneLine (Kernel.argumentsFor p)), none⟩ := by
  rw [transcriptFor, piecesFor, Transcript.ofPieces_map_ok]

/-! ### Configurations -/

variable {profile assets : String} {format : Format}

/-- Where no configuration can be built, nothing is printed. -/
theorem transcriptFor_render_of_error {failure : Failure}
    (h : MachineConfig.build fs assets p = .error failure) :
    (Action.render profile assets format).transcriptFor fs p =
      ⟨"", some ⟨some (renderContext p assets), failure⟩⟩ := by
  rw [transcriptFor, piecesFor, h]
  rfl

/-- Where one can be built, all of it is printed. -/
theorem transcriptFor_render_of_build {c : MachineConfig}
    (h : MachineConfig.build fs assets p = .ok c) (profile : String) (format : Format) :
    (Action.render profile assets format).transcriptFor fs p = ⟨configText format c, none⟩ := by
  have hjoin : String.join [configText format c] = configText format c := by simp
  rw [transcriptFor, piecesFor, h, ← hjoin]
  exact Transcript.ofPieces_map_ok [configText format c]

/-- **A configuration is printed whole** exactly if one can be built. -/
theorem transcriptFor_render_eq_iff :
    (Action.render profile assets format).transcriptFor fs p = ⟨text, none⟩ ↔
      ∃ c, MachineConfig.build fs assets p = .ok c ∧ configText format c = text := by
  cases hbuild : MachineConfig.build fs assets p with
  | error failure => simp [transcriptFor_render_of_error hbuild]
  | ok c => simp [transcriptFor_render_of_build hbuild]

/-- What an action printed where the profile is loaded. -/
theorem transcript_of_load (h : Profile.load fs a.profilePath = .ok p) :
    a.transcript fs = a.transcriptFor fs p := by
  rw [transcript, h]

/-- An action that prints everything has loaded its profile. -/
theorem transcript_eq_iff : a.transcript fs = ⟨text, none⟩ ↔
    ∃ p, Profile.load fs a.profilePath = .ok p ∧ a.transcriptFor fs p = ⟨text, none⟩ := by
  cases hload : Profile.load fs a.profilePath with
  | error failure => simp [transcript, hload]
  | ok p => simp [transcript, hload]

end Action

end MachineTuning.Command
