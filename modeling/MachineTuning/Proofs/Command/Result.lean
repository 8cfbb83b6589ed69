import MachineTuning.Proofs.Command.Formats
import MachineTuning.Proofs.Profile.File

namespace MachineTuning.Command

/-!
# Results — all of the artifact or nothing

A run prints what was asked for, all of it, or prints nothing and reports what is wrong.  What is
asked for and what is reported is spelled out here, apart from how the program prints it.

* `Action.exists_artifact_of_isServed` — where its files serve it, an action prints the artifact;
* `Action.exists_refused_of_not_isServed` — where they do not, it ends before anything is printed;
* `Invocation.prints_iff`, `Invocation.refuses_of_transcript` — what a run makes of it;
* `outcome_whole_or_none` — so a run succeeds exactly if the profile and the scripts are there, and
  neither logging nor any other file has a say in what is printed.
-/

variable {fs : FileSystem} {p : Profile} {text complaint : String} {f : RunFailure}

/-- A text denotes a configuration in a format: it is read as the configuration. -/
def Denotes (text : String) (c : MachineConfig) : Format → Prop
  | .yaml => Yaml.read MachineConfig.schema text = .ok c
  | .json => MachineConfig.schema.ofText? text = some c

namespace Action

/-! ### What is asked for -/

/-- The paths of the scripts that go into what an action prints. -/
def scriptPaths : Action → List String
  | .render _ assets _ => ["pre-boot-tuning", "reboot"].map (Assets.place assets)
  | .kernelArguments _ _ => []
  | .units _ => []

/-- A text is all of what is asked for: a document that denotes a configuration with all that the
    profile asks for and the bytes of both scripts, the kernel arguments on lines of their own or on
    one, or the lines of both services with their names. -/
inductive IsArtifact (fs : FileSystem) (p : Profile) : Action → String → Prop
  | render {profile assets format tune boot c text} :
      fs (Assets.place assets "pre-boot-tuning") = .ok tune →
      fs (Assets.place assets "reboot") = .ok boot →
      c.Carries p tune boot → Denotes text c format →
      IsArtifact fs p (.render profile assets format) text
  | lines {profile} : IsArtifact fs p (.kernelArguments profile false)
      (String.join (p.kernelArguments.map (· ++ "\n")))
  | oneLine {profile} : IsArtifact fs p (.kernelArguments profile true)
      (" ".intercalate p.kernelArguments ++ "\n")
  | units {profile} : IsArtifact fs p (.units profile)
      (UnitFile.unlines (serviceLines p.spec.cpus.housekeeping))

/-- What is reported if not all of what is asked for can be had, where `complaint` is said of a
    profile that is no document.  A system error is reported as such and once more as the cause. -/
inductive IsRefused (fs : FileSystem) (complaint : String) : Action → String → Prop
  | unreadable {a : Action} {cause : SystemError} : fs a.profilePath = .error cause →
      IsRefused fs complaint a (": ".intercalate ["io: " ++ cause.text, cause.text])
  | notText {a : Action} {bytes : List UInt8} : fs a.profilePath = .ok bytes →
      (∀ text, bytes ≠ Text.utf8 text) → IsRefused fs complaint a
        (": ".intercalate
          ["io: stream did not contain valid UTF-8", "stream did not contain valid UTF-8"])
  | malformed {a : Action} {text} : fs a.profilePath = .ok (Text.utf8 text) →
      Yaml.read Profile.schema text = .error .malformed →
      IsRefused fs complaint a ("profile: " ++ a.profilePath ++ ": " ++ complaint)
  | unfit {a : Action} {text fault} : fs a.profilePath = .ok (Text.utf8 text) →
      Yaml.read Profile.schema text = .error (.unfit fault) →
      IsRefused fs complaint a ("profile: " ++ (a.profilePath ++ ": " ++ fault.message))
  | script {profile assets format p before script after cause} :
      Profile.IsSpelledAt fs profile p →
      ["pre-boot-tuning", "reboot"] = before ++ script :: after →
      (∀ earlier ∈ before, ∃ content, fs (Assets.place assets earlier) = .ok content) →
      fs (Assets.place assets script) = .error cause →
      IsRefused fs complaint (.render profile assets format) (": ".intercalate
        ["Failed to render profile '" ++ p.name ++ "' with assets from " ++ assets,
          "script asset " ++ script ++ " at " ++ Assets.place assets script ++ ": " ++ cause.text,
          cause.text])

/-- The profile is spelled in its file, and the scripts can be read. -/
def IsServed (fs : FileSystem) (a : Action) : Prop :=
  (∃ p, Profile.IsSpelledAt fs a.profilePath p) ∧
    ∀ path ∈ a.scriptPaths, ∃ content, fs path = .ok content

/-- Two actions ask for the same of their profiles and for no scripts. -/
inductive IsAlike : Action → Action → Prop
  | kernelArguments {profile profile' oneLine} :
      IsAlike (.kernelArguments profile oneLine) (.kernelArguments profile' oneLine)
  | units {profile profile'} : IsAlike (.units profile) (.units profile')

/-! ### What an action prints -/

variable {a : Action}

/-- A configuration is built of two scripts that can be read. -/
theorem build_of_readable {assets : String} {tune boot : List UInt8}
    (htune : fs (Assets.place assets "pre-boot-tuning") = .ok tune)
    (hboot : fs (Assets.place assets "reboot") = .ok boot) : MachineConfig.build fs assets p =
      .ok (.ofProfile p [("pre-boot-tuning", tune), ("reboot", boot)]) := by
  rw [← Assets.scriptPath_of_mem_catalog _ (by decide)] at htune hboot
  refine MachineConfig.build_eq_ok_iff.2 ⟨_, Assets.loadAll_eq_ok_iff.2 ?_, rfl⟩
  exact .cons ⟨rfl, htune⟩ (.cons ⟨rfl, hboot⟩ .nil)

/-- A configuration is printed so that it is read again. -/
theorem denotes_configText (format : Format) (c : MachineConfig) :
    Denotes (configText format c) c format := by
  obtain ⟨hyaml, hjson⟩ := MachineConfig.read_configText c
  cases format with
  | yaml => exact hyaml
  | json => exact hjson

/-- For a profile and scripts that can be read, the artifact is printed. -/
theorem exists_artifact_of_readable
    (h : ∀ path ∈ a.scriptPaths, ∃ content, fs path = .ok content) (p : Profile) :
    ∃ text, a.IsArtifact fs p text ∧ a.transcriptFor fs p = ⟨text, none⟩ := by
  cases a with
  | render profile assets format =>
    -- Only rendering reads further files: the two scripts.
    obtain ⟨tune, htune⟩ := h (Assets.place assets "pre-boot-tuning") List.mem_cons_self
    obtain ⟨boot, hboot⟩ :=
      h (Assets.place assets "reboot") (List.mem_cons_of_mem _ List.mem_cons_self)
    exact ⟨_, .render htune hboot (MachineConfig.carries_ofProfile p tune boot)
      (denotes_configText format _),
      transcriptFor_render_of_build (build_of_readable htune hboot) profile format⟩
  | kernelArguments profile oneLine =>
    rw [transcriptFor_kernelArguments, Kernel.argumentsFor_eq]
    cases oneLine with
    | false => exact ⟨_, .lines, rfl⟩
    | true => exact ⟨_, .oneLine, by simp [kernelArgumentsPieces]⟩
  | units profile =>
    rw [transcriptFor_units, unitsText_eq]
    exact ⟨_, .units, rfl⟩

/-- **An action that is served** prints the artifact for the profile in its file. -/
theorem exists_artifact_of_isServed (h : a.IsServed fs) :
    ∃ p text, Profile.IsSpelledAt fs a.profilePath p ∧ a.IsArtifact fs p text ∧
      a.transcript fs = ⟨text, none⟩ := by
  obtain ⟨⟨p, hp⟩, hscripts⟩ := h
  obtain ⟨text, hartifact, hprinted⟩ := exists_artifact_of_readable hscripts p
  exact ⟨p, text, hp, hartifact, by rw [transcript_of_load (Profile.load_eq_ok_iff.2 hp), hprinted]⟩

/-! ### What an action reports -/

/-- A profile that is not loaded is reported for what is wrong with its file. -/
theorem isRefused_of_load {failure : Failure} (h : Profile.load fs a.profilePath = .error failure)
    (complaint : String) : a.IsRefused fs complaint (failure.report complaint none) := by
  cases Profile.load_eq_error_iff.1 h with
  | unreadable hcause => exact .unreadable hcause
  | notText hbytes hnone => exact .notText hbytes hnone
  | malformed hfile hspelled => exact .malformed hfile hspelled
  | unfit hfile hspelled => exact .unfit hfile hspelled

/-- Scripts that cannot be read are reported by the first of them. -/
theorem isRefused_of_build {profile assets : String} {format : Format} {failure : Failure}
    (hp : Profile.IsSpelledAt fs profile p)
    (h : MachineConfig.build fs assets p = .error failure) (complaint : String) :
    (Action.render profile assets format).IsRefused fs complaint
      (failure.report complaint (some (renderContext p assets))) := by
  obtain ⟨before, script, after, cause, hscripts, hbefore, hcause, rfl⟩ :=
    Assets.isBlamed_catalog_iff.1
      (Assets.loadAll_eq_error_iff.1 (MachineConfig.build_eq_error_iff.1 h))
  exact .script hp hscripts hbefore hcause

/-- **An action that is not served** ends before anything is printed, and what is wrong is
    reported. -/
theorem exists_refused_of_not_isServed (h : ¬a.IsServed fs) :
    ∃ f, a.transcript fs = ⟨"", some f⟩ ∧
      ∀ complaint, a.IsRefused fs complaint (f.failure.report complaint f.context) := by
  cases hload : Profile.load fs a.profilePath with
  | error failure =>
    exact ⟨⟨none, failure⟩, by rw [transcript, hload], isRefused_of_load hload⟩
  | ok p =>
    have hp := Profile.load_eq_ok_iff.1 hload
    -- The profile is there, so a script is missing, and only configurations take scripts.
    have hscripts : ¬∀ path ∈ a.scriptPaths, ∃ content, fs path = .ok content :=
      fun hscripts => h ⟨⟨p, hp⟩, hscripts⟩
    cases a with
    | render profile assets format =>
      rw [scriptPaths, List.forall_mem_map, ← Assets.forall_readable_catalog_iff,
        ← Assets.exists_loadAll_iff, ← Assets.exists_build_iff p] at hscripts
      cases hbuild : MachineConfig.build fs assets p with
      | ok c => exact absurd ⟨c, hbuild⟩ hscripts
      | error failure =>
        refine ⟨⟨some (renderContext p assets), failure⟩, ?_, isRefused_of_build hp hbuild⟩
        rw [transcript_of_load hload, transcriptFor_render_of_error hbuild]
    | kernelArguments profile oneLine => simp [scriptPaths] at hscripts
    | units profile => simp [scriptPaths] at hscripts

/-- Actions that ask for the same print the same for one profile, whatever else there is. -/
theorem IsAlike.transcriptFor_eq {a' : Action} (h : a'.IsAlike a) (fs fs' : FileSystem)
    (p : Profile) : a'.transcriptFor fs' p = a.transcriptFor fs p := by
  cases h with
  | kernelArguments => rw [transcriptFor_kernelArguments, transcriptFor_kernelArguments]
  | units => rw [transcriptFor_units, transcriptFor_units]

end Action

/-! ### What a run gives -/

/-- A run succeeded with a text and nothing else. -/
structure Outcome.Prints (o : Outcome) (text : String) : Prop where
  code : o.code = 0
  stdout : o.stdout = text
  stderr : ∀ complaint, o.stderr complaint = ""

/-- A run failed: nothing is printed, and a text is reported, where `complaint` is said of a profile
    that is no document. -/
structure Outcome.Refuses (complaint : String) (o : Outcome) (text : String) : Prop where
  code : o.code = 1
  stdout : o.stdout = ""
  stderr : o.stderr complaint = "Error: " ++ text ++ "\n"

/-- Two runs are the same to those who look at the exit code and at what is printed. -/
def Outcome.Agrees (o o' : Outcome) : Prop :=
  o.code = o'.code ∧ o.stdout = o'.stdout

namespace Invocation

variable {logSetting : Option String} {i : Invocation}

/-- A run prints what its action prints, and nothing else, if that is all of it. -/
theorem prints_iff :
    (i.outcome fs logSetting).Prints text ↔ i.action.transcript fs = ⟨text, none⟩ := by
  unfold outcome
  rcases i.action.transcript fs with ⟨printed, _ | f⟩
  · exact ⟨fun h => congrArg (Transcript.mk · none) h.stdout,
      fun h => ⟨rfl, congrArg Transcript.printed h, fun _ => rfl⟩⟩
  · exact iff_of_false (fun h => absurd h.code (by decide : ¬(1 : UInt32) = 0)) nofun

/-- A run reports what ended its action, behind what was printed. -/
theorem refuses_of_transcript (h : i.action.transcript fs = ⟨"", some f⟩) (complaint : String) :
    (i.outcome fs logSetting).Refuses complaint (f.failure.report complaint f.context) := by
  unfold outcome
  rw [h]
  exact ⟨rfl, rfl, rfl⟩

/-- A run that is not served prints nothing and reports what is wrong. -/
theorem exists_refuses (h : ¬i.action.IsServed fs) (complaint : String) :
    ∃ text, i.action.IsRefused fs complaint text ∧
      (i.outcome fs logSetting).Refuses complaint text := by
  obtain ⟨f, htranscript, hrefused⟩ := Action.exists_refused_of_not_isServed h
  exact ⟨_, hrefused complaint, refuses_of_transcript htranscript complaint⟩

/-- **A run succeeds** exactly if its action is served. -/
theorem code_eq_zero_iff : (i.outcome fs logSetting).code = 0 ↔ i.action.IsServed fs := by
  by_cases h : i.action.IsServed fs
  · obtain ⟨p, text, -, -, htranscript⟩ := Action.exists_artifact_of_isServed h
    exact iff_of_true (prints_iff.2 htranscript).code h
  · obtain ⟨f, htranscript, -⟩ := Action.exists_refused_of_not_isServed h
    have hcode : (i.outcome fs logSetting).code = 1 := (refuses_of_transcript htranscript "").code
    exact iff_of_false (fun hzero => absurd (hcode.symm.trans hzero) (by decide)) h

/-- Nothing but what was printed, and whether something ended it, shows in code and text. -/
theorem agrees_of_transcript {fs' : FileSystem} {logSetting' : Option String} {i' : Invocation}
    (hprinted : (i'.action.transcript fs').printed = (i.action.transcript fs).printed)
    (hfailure : (i'.action.transcript fs').failure.isSome =
      (i.action.transcript fs).failure.isSome) :
    (i'.outcome fs' logSetting').Agrees (i.outcome fs logSetting) := by
  unfold outcome
  generalize i.action.transcript fs = transcript at hprinted hfailure ⊢
  generalize i'.action.transcript fs' = transcript' at hprinted hfailure ⊢
  rcases transcript with ⟨printed, _ | f⟩ <;> rcases transcript' with ⟨printed', _ | f'⟩
  · exact ⟨rfl, hprinted⟩
  · cases hfailure
  · cases hfailure
  · exact ⟨rfl, hprinted⟩

/-- Runs that ask for the same of profiles in files of the same bytes agree. -/
theorem agrees_of_isAlike {fs' : FileSystem} {logSetting' : Option String} {i' : Invocation}
    (h : i'.action.IsAlike i.action)
    (hfile : fs' i'.action.profilePath = fs i.action.profilePath) :
    (i'.outcome fs' logSetting').Agrees (i.outcome fs logSetting) := by
  have hload (p : Profile) : Profile.load fs' i'.action.profilePath = .ok p ↔
      Profile.load fs i.action.profilePath = .ok p := by
    rw [Profile.load_eq_ok_iff, Profile.load_eq_ok_iff, Profile.IsSpelledAt, hfile]
    rfl
  cases hp : Profile.load fs i.action.profilePath with
  | ok p =>
    have htranscript : i'.action.transcript fs' = i.action.transcript fs := by
      rw [Action.transcript_of_load hp, Action.transcript_of_load ((hload p).2 hp),
        h.transcriptFor_eq fs fs' p]
    exact agrees_of_transcript (by rw [htranscript]) (by rw [htranscript])
  | error failure =>
    -- The failures name different paths, but both runs print nothing.
    cases hp' : Profile.load fs' i'.action.profilePath with
    | ok p => exact absurd ((hload p).1 hp') (by simp [hp])
    | error failure' =>
      exact agrees_of_transcript (by simp [Action.transcript, hp, hp'])
        (by simp [Action.transcript, hp, hp'])

end Invocation

/-- A command line that is in order is run. -/
theorem outcome_eq {assetSetting : Option String} {words : List String} {i : Invocation}
    (h : Invocation.ofWords assetSetting words = .ok i) (logSetting : Option String) :
    outcome fs assetSetting logSetting words = i.outcome fs logSetting := by
  rw [outcome, h]

/-- **All of the artifact or nothing.**  A command line that is in order succeeds exactly if the
    profile is spelled in its file and the scripts that it asks for can be read.  Then it prints
    the whole artifact; else it prints nothing and reports what is wrong.  What is printed is the
    same with other log settings, and if it takes no scripts, the file of the profile alone settles
    it. -/
theorem outcome_whole_or_none {assetSetting : Option String} {words : List String} {i : Invocation}
    (h : Invocation.ofWords assetSetting words = .ok i) (fs : FileSystem)
    (logSetting : Option String) :
    ((outcome fs assetSetting logSetting words).code = 0 ↔ i.action.IsServed fs) ∧
      (i.action.IsServed fs → ∃ p text, Profile.IsSpelledAt fs i.action.profilePath p ∧
        i.action.IsArtifact fs p text ∧ (outcome fs assetSetting logSetting words).Prints text) ∧
      (¬i.action.IsServed fs → ∀ complaint, ∃ text, i.action.IsRefused fs complaint text ∧
        (outcome fs assetSetting logSetting words).Refuses complaint text) ∧
      (∀ assetSetting' logSetting' words' debugging,
        Invocation.ofWords assetSetting' words' = .ok ⟨i.action, debugging⟩ →
        (outcome fs assetSetting' logSetting' words').Agrees
          (outcome fs assetSetting logSetting words)) ∧
      ∀ fs' assetSetting' logSetting' words' i',
        Invocation.ofWords assetSetting' words' = .ok i' → i'.action.IsAlike i.action →
        fs' i'.action.profilePath = fs i.action.profilePath →
        (outcome fs' assetSetting' logSetting' words').Agrees
          (outcome fs assetSetting logSetting words) := by
  -- Words that are understood matter through their action only; what the log is set to changes
  -- neither the code nor what is printed.
  rw [outcome_eq h]
  refine ⟨Invocation.code_eq_zero_iff, fun hserved => ?_, Invocation.exists_refuses, ?_, ?_⟩
  · obtain ⟨p, text, hp, hartifact, htranscript⟩ := Action.exists_artifact_of_isServed hserved
    exact ⟨p, text, hp, hartifact, Invocation.prints_iff.2 htranscript⟩
  · intro assetSetting' logSetting' words' debugging h'
    rw [outcome_eq h']
    exact Invocation.agrees_of_transcript rfl rfl
  · intro fs' assetSetting' logSetting' words' i' h' halike hfile
    rw [outcome_eq h']
    exact Invocation.agrees_of_isAlike halike hfile

/-- A profile of two names in its own file, with no script beside it. -/
theorem outcome_whole_or_none_unscripted :
    let fs : FileSystem := fun path =>
      if path = "p.yaml" then
        .ok (Text.utf8 "metadata:\n  name: a\nspec:\n  cpu:\n    nonIsolated: b\n")
      else .error .notFound
    Invocation.ofWords none ["render", "-p", "p.yaml"] =
        .ok ⟨.render "p.yaml" "assets" .yaml, false⟩ ∧
      (outcome fs none (some "trace") ["render", "-p", "p.yaml"]).code = 1 ∧
      (outcome fs none (some "trace") ["render", "-p", "p.yaml"]).stdout = "" ∧
      (outcome fs none none ["--debug", "kargs", "-p", "p.yaml", "--oneline"]).code = 0 := by
  intro fs
  have hrender : Invocation.ofWords none ["render", "-p", "p.yaml"] =
      .ok ⟨.render "p.yaml" "assets" .yaml, false⟩ := rfl
  have hkargs : Invocation.ofWords none ["--debug", "kargs", "-p", "p.yaml", "--oneline"] =
      .ok ⟨.kernelArguments "p.yaml" true, true⟩ := rfl
  have hprofile : Profile.IsSpelledAt fs "p.yaml" (.new "a" "b") :=
    ⟨_, if_pos rfl, Profile.read_twoNames⟩
  -- The file system holds nothing but the profile, so that the first script is not found.
  have hunserved : ¬(Action.render "p.yaml" "assets" .yaml).IsServed fs := by
    rintro ⟨-, hscripts⟩
    obtain ⟨content, hcontent⟩ := hscripts _ List.mem_cons_self
    rw [show fs _ = .error .notFound from if_neg (by decide)] at hcontent
    cases hcontent
  obtain ⟨-, -, hrefused, -⟩ := outcome_whole_or_none hrender fs (some "trace")
  obtain ⟨text, -, hrefuses⟩ := hrefused hunserved ""
  exact ⟨hrender, hrefuses.code, hrefuses.stdout,
    (outcome_whole_or_none hkargs fs none).1.2 ⟨⟨_, hprofile⟩, List.forall_mem_nil _⟩⟩

end MachineTuning.Command
