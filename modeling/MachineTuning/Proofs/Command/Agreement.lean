import MachineTuning.Proofs.Command.Result

namespace MachineTuning.Command

/-!
# Agreement — the three commands say the same

The kernel arguments and the services are put into a configuration in one place and printed alone
in another.  What is printed alone is what stands in the configuration.

* `exists_blocks_forProfile` — the services of a document, as they are printed;
* `render_agrees` — where a configuration is rendered, its arguments and services are printed for
  the same profile, wherever the scripts are.
-/

/-- A text ends a line that is not empty. -/
def EndsLine (s : String) : Prop :=
  ∃ front last, s.toList = front ++ [last, '\n'] ∧ last ≠ '\n'

/-- A block shows a service: a comment with its name, then all of its contents. -/
def IsBlock (s : Ignition.Service) (block : String) : Prop :=
  ∃ contents, s.contents = some contents ∧ block = "# " ++ s.name ++ "\n" ++ contents ∧
    EndsLine block

/-- What stands in front does not change how a text ends. -/
theorem EndsLine.append {s : String} (h : EndsLine s) (t : String) : EndsLine (t ++ s) := by
  obtain ⟨front, last, heq, hlast⟩ := h
  exact ⟨t.toList ++ front, last, by rw [String.toList_append, heq, List.append_assoc], hlast⟩

/-- The text of a tuning service ends with the directive that starts it at boot. -/
theorem endsLine_text {housekeeping : String} {u : String × List Directive}
    (hu : u ∈ UnitFile.tuning housekeeping) : EndsLine (UnitFile.text u.2) := by
  have hpieces : ∃ pieces, UnitFile.fragments u.2 = pieces ++ ["multi-user.target", "\n"] := by
    refine ⟨(UnitFile.fragments u.2).dropLast.dropLast, ?_⟩
    rcases List.mem_cons.1 hu with rfl | hu
    · rfl
    · rw [List.mem_singleton.1 hu]
      rfl
  obtain ⟨pieces, hpieces⟩ := hpieces
  rw [UnitFile.text, hpieces, String.join_append]
  apply EndsLine.append
  exact ⟨"multi-user.targe".toList, 't', rfl, by decide⟩

/-- The services of a document are printed block by block. -/
theorem exists_blocks_forProfile (p : Profile) (scripts : List (String × List UInt8)) :
    ∃ blocks, List.Forall₂ IsBlock (Ignition.Document.forProfile p scripts).services blocks ∧
      unitsText p.spec.cpus.housekeeping = "\n".intercalate blocks := by
  refine ⟨_, ?_, rfl⟩
  -- Both sides go through the same table of services.
  show List.Forall₂ IsBlock ((UnitFile.tuning p.spec.cpus.housekeeping).map
    fun u => Ignition.Service.ofDirectives u.1 u.2) _
  rw [List.forall₂_map_left_iff, List.forall₂_map_right_iff, List.forall₂_same]
  intro u hu
  exact ⟨UnitFile.text u.2, rfl, rfl, (endsLine_text hu).append _⟩

/-- **The commands agree.**  Where a configuration is rendered, the arguments printed for the same
    profile are those of the configuration, each on its own line or all on one, and the services
    printed are its services, with an empty line between two of them.  Both are printed whatever
    scripts there are. -/
theorem render_agrees {fs : FileSystem} {profile assets : String} {format : Format}
    {debugging : Bool} {logSetting : Option String} {text : String}
    (h : (Invocation.outcome fs logSetting ⟨.render profile assets format, debugging⟩).Prints
      text) :
    ∃ p c, Profile.load fs profile = .ok p ∧ MachineConfig.build fs assets p = .ok c ∧
      text = configText format c ∧
      ∀ fs' : FileSystem, fs' profile = fs profile → ∀ debugging logSetting,
        (Invocation.outcome fs' logSetting ⟨.kernelArguments profile false, debugging⟩).Prints
            (String.join (c.spec.kernelArguments.map (· ++ "\n"))) ∧
          (Invocation.outcome fs' logSetting ⟨.kernelArguments profile true, debugging⟩).Prints
            (" ".intercalate c.spec.kernelArguments ++ "\n") ∧
          ∃ blocks, List.Forall₂ IsBlock c.spec.config.services blocks ∧
            (Invocation.outcome fs' logSetting ⟨.units profile, debugging⟩).Prints
              ("\n".intercalate blocks) := by
  obtain ⟨p, hp, htext⟩ := Action.transcript_eq_iff.1 (Invocation.prints_iff.1 h)
  obtain ⟨c, hbuild, rfl⟩ := Action.transcriptFor_render_eq_iff.1 htext
  obtain ⟨loaded, -, rfl⟩ := MachineConfig.build_eq_ok_iff.1 hbuild
  refine ⟨p, _, hp, hbuild, rfl, fun fs' hfile debugging logSetting => ?_⟩
  -- The other two commands read nothing but the profile, which stands there as before.
  have hp' : Profile.load fs' profile = .ok p := by
    rw [Profile.load, hfile]
    exact hp
  have hprints {a : Action} {text : String} (ha : a.profilePath = profile)
      (htext : a.transcriptFor fs' p = ⟨text, none⟩) :
      (Invocation.outcome fs' logSetting ⟨a, debugging⟩).Prints text := by
    apply Invocation.prints_iff.2
    rw [Action.transcript_of_load (ha ▸ hp'), htext]
  obtain ⟨blocks, hblocks, hunits⟩ := exists_blocks_forProfile p loaded
  refine ⟨hprints rfl (Action.transcriptFor_kernelArguments _ _ _ _), ?_, blocks, hblocks, ?_⟩
  · refine hprints rfl ((Action.transcriptFor_kernelArguments _ _ _ _).trans ?_)
    simp [kernelArgumentsPieces, MachineConfig.ofProfile]
  · rw [← hunits]
    exact hprints rfl (Action.transcriptFor_units _ _ _)

/-- A profile of two names, with scripts that hold nothing. -/
theorem render_agrees_emptyScripts :
    let fs : FileSystem := fun path =>
      if path = "p.yaml" then
        .ok (Text.utf8 "metadata:\n  name: a\nspec:\n  cpu:\n    nonIsolated: b\n")
      else .ok []
    (∃ text, (Invocation.outcome fs none ⟨.render "p.yaml" "assets" .json, false⟩).Prints text) ∧
      ∃ c, MachineConfig.build fs "assets" (.new "a" "b") = .ok c ∧
        (Invocation.outcome fs none ⟨.kernelArguments "p.yaml" true, true⟩).Prints
          (" ".intercalate c.spec.kernelArguments ++ "\n") := by
  intro fs
  have hprofile : Profile.IsSpelledAt fs "p.yaml" (.new "a" "b") :=
    ⟨_, if_pos rfl, Profile.read_twoNames⟩
  have hserved : (Action.render "p.yaml" "assets" .json).IsServed fs := by
    refine ⟨⟨_, hprofile⟩, List.forall_mem_map.2 fun script _ => ?_⟩
    -- Whatever is asked for is there: the profile at its path, and an empty script at every other.
    by_cases hpath : Assets.place "assets" script = "p.yaml"
    · exact ⟨_, if_pos hpath⟩
    · exact ⟨_, if_neg hpath⟩
  obtain ⟨_, text, -, -, htranscript⟩ := Action.exists_artifact_of_isServed hserved
  have hprints : (Invocation.outcome fs none ⟨.render "p.yaml" "assets" .json, false⟩).Prints
      text := Invocation.prints_iff.2 htranscript
  obtain ⟨p, c, hload, hbuild, -, hothers⟩ := render_agrees hprints
  obtain rfl : p = .new "a" "b" :=
    Except.ok.inj (hload.symm.trans (Profile.load_eq_ok_iff.2 hprofile))
  exact ⟨⟨text, hprints⟩, c, hbuild, (hothers fs rfl true none).2.1⟩

end MachineTuning.Command
