import MachineTuning.Assets
import MachineTuning.Proofs.Outcome

namespace MachineTuning

/-!
# Assets — when a configuration is built, and from what

* `Assets.scriptPath_eq_place` — the path of a script, spelled out;
* `Assets.loadAll_eq_ok_iff` — what is loaded are the scripts of the catalog, each with the bytes
  that stand at its path;
* `Assets.exists_loadAll_iff` — loading succeeds exactly if every script can be read;
* `Assets.loadAll_eq_error_iff` — otherwise the first that cannot be read is to blame;
* `MachineConfig.build_eq_ok_iff` — a configuration is made of the profile and what was loaded;
* `MachineConfig.build_eq_error_iff` — and there is none exactly if loading fails.
-/

namespace Script

variable {script script' : String}

/-- Where a script is installed, spelled out. -/
theorem installPath_eq : installPath script = "/usr/local/bin/" ++ script ++ ".sh" := by
  simp [installPath, installFolder, fileName, fileExtension, String.append_assoc]

/-- Scripts have different files. -/
theorem fileName_inj : fileName script = fileName script' ↔ script = script' := by
  unfold fileName
  rw [String.append_left_inj, String.append_left_inj]

/-- Scripts are installed at different paths. -/
theorem installPath_inj : installPath script = installPath script' ↔ script = script' := by
  unfold installPath
  rw [String.append_right_inj, fileName_inj]

end Script

namespace Assets

variable {fs : FileSystem} {directory : String}

/-! ### The paths of scripts -/

/-- Where a script is expected: `scripts/<script>.sh` behind the directory.  A slash stands between
    the two unless the directory ends with one or is the empty path. -/
def place (directory script : String) : String :=
  directory ++ (if directory = "" ∨ directory.toList.getLast? = some '/' then "" else "/") ++
    "scripts/" ++ script ++ ".sh"

/-- **The path of a script**, spelled out. -/
theorem scriptPath_eq_place {script : String} (h : '/' ∉ script.toList) :
    scriptPath directory script = place directory script := by
  have hfolder : joinPath directory Script.assetFolder = directory ++
      (if directory = "" ∨ directory.toList.getLast? = some '/' then "" else "/") ++ "scripts" := by
    have hrelative : isAbsolute Script.assetFolder = false := rfl
    rw [joinPath, hrelative, if_neg Bool.false_ne_true]
    simp only [String.isEmpty_iff]
    split <;> simp [Script.assetFolder]
  have hrelative : isAbsolute (Script.fileName script) = false := by
    rw [isAbsolute, decide_eq_false_iff_not, Script.fileName, Script.fileExtension]
    intro hhead
    simpa [h] using List.mem_of_mem_head? hhead
  -- The folder is no empty path and does not end with a slash.
  have hslash {outer : String} : joinPath (outer ++ "scripts") (Script.fileName script) =
      outer ++ "scripts/" ++ script ++ ".sh" := by
    rw [joinPath, hrelative, if_neg Bool.false_ne_true, if_neg]
    · simp [Script.fileName, Script.fileExtension, String.append_assoc]
    · simp
  rw [scriptPath, hfolder, hslash]
  rfl

/-- The paths of the scripts of the catalog, spelled out. -/
theorem scriptPath_of_mem_catalog : ∀ script ∈ Script.catalog,
    scriptPath directory script = place directory script := by
  have hslash : ∀ script ∈ Script.catalog, '/' ∉ script.toList := by decide
  exact fun script hscript => scriptPath_eq_place (hslash script hscript)

/-! ### Loading -/

/-- An entry holds a script with the bytes that stand at its path. -/
def IsLoaded (fs : FileSystem) (directory script : String) (entry : String × List UInt8) : Prop :=
  entry.1 = script ∧ fs (scriptPath directory script) = .ok entry.2

/-- A script is loaded if it can be read, with the bytes that stand at its path. -/
theorem load_eq_ok_iff {script : String} {content : List UInt8} :
    load fs directory script = .ok content ↔ fs (scriptPath directory script) = .ok content := by
  rw [load, Outcome.mapError_eq_ok_iff]

/-- **What is loaded** are the scripts of the catalog, in order. -/
theorem loadAll_eq_ok_iff {loaded : List (String × List UInt8)} :
    loadAll fs directory = .ok loaded ↔
      List.Forall₂ (IsLoaded fs directory) Script.catalog loaded := by
  -- One step loads a script and puts its name in front of the bytes.
  have hstep (script : String) (entry : String × List UInt8) :
      (load fs directory script >>= fun content => pure (script, content)) = .ok entry ↔
        IsLoaded fs directory script entry := by
    rw [Outcome.bind_eq_ok_iff]
    constructor
    · rintro ⟨content, hload, heq⟩
      obtain rfl := Except.ok.inj heq
      exact ⟨rfl, load_eq_ok_iff.1 hload⟩
    · rintro ⟨rfl, hread⟩
      exact ⟨entry.2, load_eq_ok_iff.2 hread, rfl⟩
  rw [loadAll, Outcome.mapM_eq_ok_iff]
  simp only [hstep]

/-- A failure blames a script that cannot be read although all in front of it can. -/
def IsBlamed (fs : FileSystem) (directory : String) (scripts : List String) (failure : Failure) :
    Prop :=
  ∃ before script after cause, scripts = before ++ script :: after ∧
    (∀ earlier ∈ before, ∃ content, fs (scriptPath directory earlier) = .ok content) ∧
    fs (scriptPath directory script) = .error cause ∧
    failure = .asset script (scriptPath directory script) cause

/-- **Loading fails** with the first script of the catalog that cannot be read. -/
theorem loadAll_eq_error_iff {failure : Failure} :
    loadAll fs directory = .error failure ↔ IsBlamed fs directory Script.catalog failure := by
  -- A script with its name in front is there or missing as the script alone is.
  have hok (script : String) : (∃ entry, (load fs directory script >>= fun content =>
      pure (script, content)) = .ok entry) ↔
      ∃ content, fs (scriptPath directory script) = .ok content := by
    simp [Outcome.bind_eq_ok_iff, load_eq_ok_iff, pure, Except.pure]
  have herror (script : String) : (load fs directory script >>= fun content =>
      (pure (script, content) : Except Failure _)) = .error failure ↔ ∃ cause,
      fs (scriptPath directory script) = .error cause ∧
        failure = .asset script (scriptPath directory script) cause := by
    simp [Outcome.bind_eq_error_iff, load, Outcome.mapError_eq_error_iff, pure, Except.pure,
      @eq_comm _ failure]
  rw [loadAll, Outcome.mapM_eq_error_iff, IsBlamed]
  simp only [hok, herror, exists_and_left]

/-- The failure blames one of the two scripts, at its path. -/
theorem isBlamed_catalog_iff {failure : Failure} : IsBlamed fs directory Script.catalog failure ↔
    ∃ before script after cause, ["pre-boot-tuning", "reboot"] = before ++ script :: after ∧
      (∀ earlier ∈ before, ∃ content, fs (place directory earlier) = .ok content) ∧
      fs (place directory script) = .error cause ∧
      failure = .asset script (place directory script) cause := by
  refine exists_congr fun before => exists_congr fun script => exists_congr fun after =>
    exists_congr fun cause => and_congr_right fun heq => ?_
  have hplace : ∀ s ∈ before ++ script :: after, scriptPath directory s = place directory s :=
    heq ▸ scriptPath_of_mem_catalog
  rw [hplace script (by simp)]
  exact and_congr_left' (forall₂_congr fun earlier hearlier => by
    rw [hplace earlier (List.mem_append_left _ hearlier)])

/-- Loading succeeds exactly if every script of the catalog can be read. -/
theorem exists_loadAll_iff : (∃ loaded, loadAll fs directory = .ok loaded) ↔
    ∀ script ∈ Script.catalog, ∃ content, fs (scriptPath directory script) = .ok content := by
  simp only [loadAll_eq_ok_iff]
  -- Which scripts the catalog names does not matter, only that each of them is loaded.
  induction Script.catalog with
  | nil => simp
  | cons script scripts ih =>
    rw [List.forall_mem_cons, ← ih]
    constructor
    · rintro ⟨loaded, h⟩
      obtain ⟨entry, rest, hentry, hrest, rfl⟩ := List.forall₂_cons_left_iff.1 h
      exact ⟨⟨entry.2, hentry.2⟩, rest, hrest⟩
    · rintro ⟨⟨content, hread⟩, rest, hrest⟩
      exact ⟨(script, content) :: rest, .cons ⟨rfl, hread⟩ hrest⟩

/-- Both scripts can be read exactly if there is something at both paths. -/
theorem forall_readable_catalog_iff :
    (∀ script ∈ Script.catalog, ∃ content, fs (scriptPath directory script) = .ok content) ↔
      ∀ script ∈ ["pre-boot-tuning", "reboot"], ∃ content,
        fs (place directory script) = .ok content :=
  forall₂_congr fun script hscript => by rw [scriptPath_of_mem_catalog script hscript]

/-- What is loaded has the names that were asked for. -/
theorem map_fst_of_isLoaded {scripts : List String} {loaded : List (String × List UInt8)}
    (h : List.Forall₂ (IsLoaded fs directory) scripts loaded) : loaded.map (·.1) = scripts := by
  induction h with
  | nil => rfl
  | cons hentry _ ih => rw [List.map_cons, ih, hentry.1]

/-- Two times the same is loaded exactly if the scripts hold the same bytes. -/
theorem loaded_eq_iff {fs₁ fs₂ : FileSystem} {directory₁ directory₂ : String}
    {loaded₁ loaded₂ : List (String × List UInt8)} (h₁ : loadAll fs₁ directory₁ = .ok loaded₁)
    (h₂ : loadAll fs₂ directory₂ = .ok loaded₂) :
    loaded₁ = loaded₂ ↔ ∀ script ∈ Script.catalog, ∃ content,
      fs₁ (scriptPath directory₁ script) = .ok content ∧
        fs₂ (scriptPath directory₂ script) = .ok content := by
  rw [loadAll_eq_ok_iff] at h₁ h₂
  revert h₁ h₂
  -- Both runs go over the same names, whichever these are.
  generalize Script.catalog = scripts
  intro h₁ h₂
  induction scripts generalizing loaded₁ loaded₂ with
  | nil =>
    cases h₁
    cases h₂
    simp
  | cons script scripts ih =>
    obtain ⟨⟨_, content₁⟩, rest₁, ⟨rfl, hread₁⟩, hrest₁, rfl⟩ := List.forall₂_cons_left_iff.1 h₁
    obtain ⟨⟨_, content₂⟩, rest₂, ⟨rfl, hread₂⟩, hrest₂, rfl⟩ := List.forall₂_cons_left_iff.1 h₂
    rw [List.forall_mem_cons, ← ih hrest₁ hrest₂, hread₁, hread₂]
    simp [@eq_comm _ content₂]

end Assets

/-- **A configuration is built** of the profile and the scripts that were loaded. -/
theorem MachineConfig.build_eq_ok_iff {fs : FileSystem} {directory : String} {p : Profile}
    {c : MachineConfig} : build fs directory p = .ok c ↔
      ∃ loaded, Assets.loadAll fs directory = .ok loaded ∧ ofProfile p loaded = c := by
  rw [build]
  cases hload : Assets.loadAll fs directory with
  | error failure => simp [bind, Except.bind]
  | ok loaded => simp [bind, Except.bind, pure, Except.pure]

/-- Something is built exactly if all scripts are loaded. -/
theorem Assets.exists_build_iff {fs : FileSystem} {directory : String} (p : Profile) :
    (∃ c, MachineConfig.build fs directory p = .ok c) ↔
      ∃ loaded, loadAll fs directory = .ok loaded := by
  simp only [MachineConfig.build_eq_ok_iff]
  constructor
  · rintro ⟨_, loaded, hloaded, -⟩
    exact ⟨loaded, hloaded⟩
  · rintro ⟨loaded, hloaded⟩
    exact ⟨_, loaded, hloaded, rfl⟩

/-- **No configuration is built** where the scripts are not loaded, for the same reason. -/
theorem MachineConfig.build_eq_error_iff {fs : FileSystem} {directory : String} {p : Profile}
    {failure : Failure} : build fs directory p = .error failure ↔
      Assets.loadAll fs directory = .error failure := by
  rw [build]
  cases hload : Assets.loadAll fs directory with
  | error failure => simp [bind, Except.bind]
  | ok loaded => simp [bind, Except.bind, pure, Except.pure]

end MachineTuning
