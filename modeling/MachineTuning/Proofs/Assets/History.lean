import Mathlib.Data.List.Forall2
import MachineTuning.Assets.Edit
import MachineTuning.Ignition.Edit
import MachineTuning.Proofs.Assets.Folder
import MachineTuning.Proofs.DataUri

namespace MachineTuning.Assets

/-!
# Assets — what a history of edits leaves behind

Scripts of an asset directory are written, overwritten and removed, each under its own name, and
what is loaded and built from there must follow.  A script that is not there cannot be removed, so
that not every list of steps is a history.

* `latest` — the bytes under a name after a history: those that were written there last, if they
  were not removed since;
* `Holds.edited` — these are what stands in the folder of the scripts, whatever the path to it;
* `tracks_edited` — so scripts load as they were written last, configurations are built of them,
  and neither other scripts nor the order of steps on different ones make a difference.
-/

/-- The scripts at the start. -/
def Start.contents : Start → String → Option (List UInt8)
  | .empty, _ => none
  | .samples, script =>
    if script = "pre-boot-tuning" then
      some (Text.utf8 ("#!/usr/bin/env bash\nset -euo pipefail\necho \"housekeeping cpus: $" ++
        "\x7bNON_ISOLATED_CPUS\x7d\"\n"))
    else if script = "reboot" then
      some (Text.utf8 "#!/usr/bin/env bash\nset -euo pipefail\necho reboot\n")
    else none

variable {directory : String} {contents : String → Option (List UInt8)} {disk : Disk} {e : Edit}
  {edits : List Edit}

/-! ### Steps -/

/-- The script that a step is about. -/
def Edit.script : Edit → String
  | .write script _ => script
  | .remove script => script

/-- What a step leaves under the name of its script. -/
def Edit.content? : Edit → Option (List UInt8)
  | .write _ content => some content
  | .remove _ => none

/-- A step can be taken: a script is removed only where it is there. -/
def Edit.IsPossible (contents : String → Option (List UInt8)) : Edit → Prop
  | .write _ _ => True
  | .remove script => contents script ≠ none

section

variable (hroom : Text.byteCount directory + Text.byteCount "/scripts/" + 255 ≤ 4095)
include hroom

/-- **A step** changes what stands under the name of its script and nothing else. -/
theorem Holds.edit (h : Holds directory contents disk) (he : Script.IsName e.script)
    (hpossible : e.IsPossible contents) : ∃ after, edit directory disk e = .ok after ∧
      Holds directory (Function.update contents e.script e.content?) after := by
  cases e with
  | write script content => exact h.writeFile hroom he content
  | remove script =>
    obtain ⟨content, hcontent⟩ := Option.ne_none_iff_exists'.1 hpossible
    exact h.removeFile hroom he hcontent

/-- A script that is not there cannot be removed. -/
theorem Holds.edit_of_not_isPossible (h : Holds directory contents disk)
    (he : Script.IsName e.script) (hpossible : ¬e.IsPossible contents) :
    Assets.edit directory disk e = .error .notFound := by
  cases e with
  | write script content => exact absurd trivial hpossible
  | remove script => exact h.removeFile_of_none hroom he (not_not.1 hpossible)

end

/-! ### Histories -/

/-- What stands under the name of a script after a history: what the last step on it left there,
    or what was there before all of them. -/
def latest (contents : String → Option (List UInt8)) (edits : List Edit) (script : String) :
    Option (List UInt8) :=
  match (edits.filter (·.script = script)).getLast? with
  | some e => e.content?
  | none => contents script

/-- Steps that can be taken one after the other: whatever is removed was there, from the start or
    as it was written last. -/
def ArePossible (contents : String → Option (List UInt8)) (edits : List Edit) : Prop :=
  ∀ before script rest, edits = before ++ .remove script :: rest →
    latest contents before script ≠ none

/-- The first step of a history changes what the others start with. -/
theorem latest_cons (contents : String → Option (List UInt8)) (e : Edit) (edits : List Edit) :
    latest contents (e :: edits) =
      latest (Function.update contents e.script e.content?) edits := by
  funext script
  rw [latest, latest, Function.update_apply]
  by_cases h : e.script = script
  · rw [List.filter_cons_of_pos (by simpa using h), List.getLast?_cons, if_pos h.symm]
    cases (edits.filter (·.script = script)).getLast? <;> rfl
  · rw [List.filter_cons_of_neg (by simpa using h), if_neg (Ne.symm h)]

/-- The first step can be taken, and the others behind it. -/
theorem arePossible_cons : ArePossible contents (e :: edits) ↔ e.IsPossible contents ∧
    ArePossible (Function.update contents e.script e.content?) edits := by
  constructor
  · intro h
    constructor
    · cases e with
      | write script content => trivial
      | remove script => exact h [] script edits rfl
    · intro before script rest heq
      have hlatest := h (e :: before) script rest (by rw [heq, List.cons_append])
      rwa [latest_cons] at hlatest
  · rintro ⟨he, h⟩ before script rest heq
    -- The step to look at is the first one, or it comes later and its history starts with the
    -- first.
    cases before with
    | nil =>
      obtain ⟨rfl, -⟩ := List.cons.inj heq
      exact he
    | cons first before =>
      obtain ⟨rfl, rfl⟩ := List.cons.inj heq
      rw [latest_cons]
      exact h before script rest rfl

/-- **A history** leaves under each name what was written there last. -/
theorem Holds.edited (hroom : Text.byteCount directory + Text.byteCount "/scripts/" + 255 ≤ 4095)
    (h : Holds directory contents disk) (hedits : ∀ e ∈ edits, Script.IsName e.script)
    (hpossible : ArePossible contents edits) : ∃ after,
      edited directory disk edits = .ok after ∧ Holds directory (latest contents edits) after := by
  induction edits generalizing contents disk with
  | nil => exact ⟨disk, rfl, h⟩
  | cons e edits ih =>
    obtain ⟨he, hedits⟩ := List.forall_mem_cons.1 hedits
    obtain ⟨hfirst, hothers⟩ := arePossible_cons.1 hpossible
    obtain ⟨next, hnext, hholds⟩ := h.edit hroom he hfirst
    rw [latest_cons, Assets.edited, List.foldlM_cons, hnext]
    exact ih hholds hedits hothers

/-- Steps that cannot all be taken end at a script that is not there. -/
theorem Holds.edited_of_not_arePossible
    (hroom : Text.byteCount directory + Text.byteCount "/scripts/" + 255 ≤ 4095)
    (h : Holds directory contents disk) (hedits : ∀ e ∈ edits, Script.IsName e.script)
    (hpossible : ¬ArePossible contents edits) :
    Assets.edited directory disk edits = .error .notFound := by
  induction edits generalizing contents disk with
  | nil => exact absurd (fun _ _ _ heq => by simp at heq) hpossible
  | cons e edits ih =>
    obtain ⟨he, hedits⟩ := List.forall_mem_cons.1 hedits
    rw [Assets.edited, List.foldlM_cons]
    by_cases hfirst : e.IsPossible contents
    · obtain ⟨next, hnext, hholds⟩ := h.edit hroom he hfirst
      rw [hnext]
      exact ih hholds hedits fun hothers => hpossible (arePossible_cons.2 ⟨hfirst, hothers⟩)
    · rw [h.edit_of_not_isPossible hroom he hfirst]
      rfl

/-- **A history is taken to its end** exactly if its steps can all be taken. -/
theorem Holds.exists_edited_iff
    (hroom : Text.byteCount directory + Text.byteCount "/scripts/" + 255 ≤ 4095)
    (h : Holds directory contents disk) (hedits : ∀ e ∈ edits, Script.IsName e.script) :
    (∃ after, Assets.edited directory disk edits = .ok after) ↔ ArePossible contents edits := by
  constructor
  · rintro ⟨after, hafter⟩
    by_contra hnot
    rw [h.edited_of_not_arePossible hroom hedits hnot] at hafter
    cases hafter
  · intro hpossible
    obtain ⟨after, hafter, -⟩ := h.edited hroom hedits hpossible
    exact ⟨after, hafter⟩

/-- The scripts of the start are there after they were written. -/
theorem latest_edits (start : Start) : latest (fun _ => none) start.edits = start.contents := by
  cases start with
  | empty => rfl
  | samples =>
    funext script
    by_cases hreboot : script = "reboot"
    · subst hreboot
      rfl
    by_cases htuning : script = "pre-boot-tuning"
    · subst htuning
      rfl
    have hfilter : Start.samples.edits.filter (·.script = script) = [] := by
      simp [Start.edits, Script.samples, Edit.script, Script.preBootTuning, Script.reboot,
        Ne.symm hreboot, Ne.symm htuning]
    simp [latest, hfilter, Start.contents, hreboot, htuning]

/-- **At the start** the folder of the scripts holds those of the start. -/
theorem holds_prepared (h : IsFresh disk directory) (start : Start) : ∃ ready,
    prepared directory start disk = .ok ready ∧ Holds directory start.contents ready := by
  obtain ⟨made, hmade, hholds⟩ := holds_makeFolder h
  have hnames : ∀ e ∈ start.edits, Script.IsName e.script := by cases start <;> decide
  have hpossible : ArePossible (fun _ => none) start.edits := by
    cases start with
    | empty => exact fun _ _ _ heq => by simp [Start.edits] at heq
    | samples =>
      refine arePossible_cons.2 ⟨trivial, arePossible_cons.2 ⟨trivial, ?_⟩⟩
      exact fun _ _ _ heq => by simp at heq
  obtain ⟨ready, hready, hholds⟩ := hholds.edited h.room hnames hpossible
  rw [latest_edits] at hholds
  refine ⟨ready, ?_, hholds⟩
  rw [prepared, hmade]
  exact hready

/-! ### What is loaded and built -/

/-- The scripts that are loaded, one by one or all together, and those that a configuration embeds
    are those that have some content, with that content. -/
structure Tracks (fs : FileSystem) (directory : String) (contents : String → Option (List UInt8)) :
    Prop where
  load : ∀ script, Script.IsName script → Assets.load fs directory script =
    (contents script).elim (.error (.asset script (place directory script)
      ⟨.notFound, "No such file or directory (os error 2)"⟩)) .ok
  loadAll_iff : ∀ loaded, loadAll fs directory = .ok loaded ↔ List.Forall₂ (fun script entry =>
    entry.1 = script ∧ contents script = some entry.2) ["pre-boot-tuning", "reboot"] loaded
  loads_iff : (∃ loaded, loadAll fs directory = .ok loaded) ↔
    ∀ script ∈ ["pre-boot-tuning", "reboot"], ∃ content, contents script = some content
  builds_iff : ∀ p, (∃ c, MachineConfig.build fs directory p = .ok c) ↔
    ∃ loaded, loadAll fs directory = .ok loaded
  embeds : ∀ p c, MachineConfig.build fs directory p = .ok c → List.Forall₂ (fun script file =>
    file.path = "/usr/local/bin/" ++ script ++ ".sh" ∧
      ∃ content, contents script = some content ∧ file.content = .ok content)
    ["pre-boot-tuning", "reboot"] c.spec.config.files

/-- The same is loaded and built from two file systems. -/
structure BuildsAlike (fs fs' : FileSystem) (directory : String) : Prop where
  loadAll : Assets.loadAll fs directory = Assets.loadAll fs' directory
  build : ∀ p, MachineConfig.build fs directory p = MachineConfig.build fs' directory p

/-- The same is loaded and built from two file systems, and every script is the same in both. -/
structure LoadsAlike (fs fs' : FileSystem) (directory : String) : Prop
    extends BuildsAlike fs fs' directory where
  load : ∀ script, Script.IsName script →
    Assets.load fs directory script = Assets.load fs' directory script

section

variable {fs fs' : FileSystem}

/-- The scripts in a configuration decode to what was loaded. -/
theorem forall₂_files_of_build {p : Profile} {c : MachineConfig}
    (h : MachineConfig.build fs directory p = .ok c) : List.Forall₂ (fun script file =>
      file.path = Script.installPath script ∧
        ∃ content, fs (scriptPath directory script) = .ok content ∧ file.content = .ok content)
      Script.catalog c.spec.config.files := by
  obtain ⟨loaded, hloaded, rfl⟩ := MachineConfig.build_eq_ok_iff.1 h
  refine List.forall₂_map_right_iff.2 ((loadAll_eq_ok_iff.1 hloaded).imp ?_)
  rintro script ⟨_, content⟩ ⟨rfl, hread⟩
  exact ⟨rfl, content, hread, DataUri.decode_encode content⟩

/-- What is related may be related otherwise as far as the first list goes. -/
theorem forall₂_imp_of_mem {α β : Type} {R S : α → β → Prop} {l : List α} {r : List β}
    (h : ∀ a ∈ l, ∀ b, R a b → S a b) (hlr : List.Forall₂ R l r) : List.Forall₂ S l r := by
  have hmem : List.Forall₂ (fun a b => a ∈ l ∧ R a b) l r :=
    (List.forall₂_and_left l r).2 ⟨fun _ ha => ha, hlr⟩
  exact hmem.imp fun a b hab => h a hab.1 b hab.2

/-- **What the folder of the scripts holds** decides what is loaded and built. -/
theorem Holds.tracks (hroom : Text.byteCount directory + Text.byteCount "/scripts/" + 255 ≤ 4095)
    (h : Holds directory contents disk) : Tracks disk.read directory contents := by
  have hread : ∀ script ∈ Script.catalog, ∀ content,
      disk.read (scriptPath directory script) = .ok content ↔ contents script = some content := by
    intro script hscript content
    rw [h.read_scriptPath hroom (Script.isName_of_mem_catalog script hscript)]
    cases contents script <;> simp
  -- What is read back is all that loading and building look at.
  refine ⟨?load, ?loadAll_iff, ?loads_iff, exists_build_iff, ?embeds⟩
  case load =>
    intro script hscript
    rw [Assets.load, h.read_scriptPath hroom hscript, scriptPath_eq_place hscript.slash]
    cases contents script <;> rfl
  case loadAll_iff =>
    intro loaded
    rw [loadAll_eq_ok_iff]
    constructor
    · exact forall₂_imp_of_mem fun script hscript _ => And.imp_right (hread script hscript _).1
    · exact forall₂_imp_of_mem fun script hscript _ => And.imp_right (hread script hscript _).2
  case loads_iff =>
    rw [exists_loadAll_iff]
    exact forall₂_congr fun script hscript => exists_congr (hread script hscript)
  case embeds =>
    intro p c hbuild
    refine forall₂_imp_of_mem ?_ (forall₂_files_of_build hbuild)
    rintro script hscript file ⟨hpath, content, hcontent, hfile⟩
    exact ⟨hpath.trans Script.installPath_eq, content, (hread script hscript content).1 hcontent,
      hfile⟩

/-- What is loaded and built after a history follows what it left. -/
theorem Holds.tracks_of_edited
    (hroom : Text.byteCount directory + Text.byteCount "/scripts/" + 255 ≤ 4095)
    (h : Holds directory contents disk) (hedits : ∀ e ∈ edits, Script.IsName e.script)
    {after : Disk} (hafter : Assets.edited directory disk edits = .ok after) :
    Tracks after.read directory (latest contents edits) := by
  have hpossible := (h.exists_edited_iff hroom hedits).1 ⟨after, hafter⟩
  obtain ⟨after', hafter', hlatest⟩ := h.edited hroom hedits hpossible
  rw [hafter] at hafter'
  obtain rfl := Except.ok.inj hafter'
  exact hlatest.tracks hroom

/-- A script that has the same content in two places is loaded alike from both. -/
theorem Tracks.load_eq {contents' : String → Option (List UInt8)} (h : Tracks fs directory contents)
    (h' : Tracks fs' directory contents') {script : String} (hscript : Script.IsName script)
    (hsame : contents script = contents' script) :
    Assets.load fs directory script = Assets.load fs' directory script := by
  rw [h.load script hscript, h'.load script hscript, hsame]

/-- Scripts that load alike load alike all together. -/
theorem loadAll_congr (h : ∀ script ∈ Script.catalog,
    load fs directory script = load fs' directory script) :
    loadAll fs directory = loadAll fs' directory := by
  rw [loadAll, loadAll]
  revert h
  -- Which scripts the catalog names does not matter.
  generalize Script.catalog = scripts
  intro h
  induction scripts with
  | nil => rfl
  | cons script scripts ih =>
    obtain ⟨hscript, hscripts⟩ := List.forall_mem_cons.1 h
    rw [List.mapM_cons, List.mapM_cons, hscript, ih hscripts]

/-- What is built depends on the scripts of the catalog only. -/
theorem buildsAlike_of_load (h : ∀ script ∈ Script.catalog,
    load fs directory script = load fs' directory script) : BuildsAlike fs fs' directory where
  loadAll := loadAll_congr h
  build p := by rw [MachineConfig.build, MachineConfig.build, loadAll_congr h]

/-! ### Other scripts, other orders -/

/-- A step on another script does not matter. -/
theorem latest_append_cons_of_ne {contents : String → Option (List UInt8)}
    {before rest : List Edit} {e : Edit} {script : String} (h : e.script ≠ script) :
    latest contents (before ++ e :: rest) script = latest contents (before ++ rest) script := by
  rw [latest, latest, List.filter_append, List.filter_append,
    List.filter_cons_of_neg (by simpa using h)]

/-- Two steps on different scripts may change places. -/
theorem latest_append_swap {contents : String → Option (List UInt8)} {before rest : List Edit}
    {e e' : Edit} (h : e.script ≠ e'.script) : latest contents (before ++ e :: e' :: rest) =
      latest contents (before ++ e' :: e :: rest) := by
  funext script
  by_cases he : e.script = script
  · have he' : e'.script ≠ script := fun he' => h (he.trans he'.symm)
    rw [List.append_cons before e (e' :: rest), latest_append_cons_of_ne he',
      latest_append_cons_of_ne he', List.append_cons before e rest]
  · rw [latest_append_cons_of_ne he, List.append_cons before e' (e :: rest),
      latest_append_cons_of_ne he, ← List.append_cons]

/-- Two steps on different scripts can be taken in either order. -/
theorem arePossible_append_swap {before rest : List Edit} {e e' : Edit}
    (h : e.script ≠ e'.script) (hpossible : ArePossible contents (before ++ e :: e' :: rest)) :
    ArePossible contents (before ++ e' :: e :: rest) := by
  -- What stands under one name does not depend on a step on the other.
  have hother {e e' : Edit} (h : e.script ≠ e'.script) (contents : String → Option (List UInt8)) :
      e'.IsPossible (Function.update contents e.script e.content?) ↔ e'.IsPossible contents := by
    cases e' with
    | write script content => exact Iff.rfl
    | remove script => exact iff_of_eq (congrArg (· ≠ none) (Function.update_of_ne h.symm _ _))
  induction before generalizing contents with
  | nil =>
    rw [List.nil_append] at hpossible ⊢
    obtain ⟨hfirst, hothers⟩ := arePossible_cons.1 hpossible
    obtain ⟨hsecond, hrest⟩ := arePossible_cons.1 hothers
    rw [Function.update_comm h] at hrest
    exact arePossible_cons.2 ⟨(hother h contents).1 hsecond,
      arePossible_cons.2 ⟨(hother h.symm contents).2 hfirst, hrest⟩⟩
  | cons first before ih =>
    obtain ⟨hfirst, hothers⟩ := arePossible_cons.1 hpossible
    exact arePossible_cons.2 ⟨hfirst, ih hothers⟩

/-- **Every history of an asset directory**, without scripts or with the sample scripts at the
    start, wherever on a disk it is made.  The steps can all be taken exactly if no script is
    removed that is not there.  Then what is loaded and built follows what was written last under
    each name; a step on a script that is not in the catalog makes no difference to what is built,
    and the order of two steps on different scripts makes none at all.  As the part of a history up
    to some step is itself a history, all this holds after every step. -/
theorem tracks_edited {disk : Disk} {directory : String} (hfresh : IsFresh disk directory)
    (start : Start) {edits : List Edit} (hedits : ∀ e ∈ edits, Script.IsName e.script) :
    let run edits := prepared directory start disk >>= fun ready => edited directory ready edits
    ((∃ after, run edits = .ok after) ↔ ArePossible start.contents edits) ∧
      ∀ after, run edits = .ok after →
        Tracks after.read directory (latest start.contents edits) ∧
        (∀ before e rest, edits = before ++ e :: rest → e.script ∉ ["pre-boot-tuning", "reboot"] →
          ∀ after', run (before ++ rest) = .ok after' →
            BuildsAlike after.read after'.read directory) ∧
        ∀ before e e' rest, edits = before ++ e :: e' :: rest → e.script ≠ e'.script →
          ∃ after', run (before ++ e' :: e :: rest) = .ok after' ∧
            LoadsAlike after.read after'.read directory := by
  intro run
  obtain ⟨ready, hready, hholds⟩ := holds_prepared hfresh start
  -- Each history is an edited one from the same disk, the one that the start prepares.
  have hrun (edits : List Edit) : run edits = edited directory ready edits := by
    show prepared directory start disk >>= _ = _
    rw [hready]
    rfl
  have htracks {edits : List Edit} (hedits : ∀ e ∈ edits, Script.IsName e.script) {after : Disk}
      (hafter : run edits = .ok after) :
      Tracks after.read directory (latest start.contents edits) :=
    hholds.tracks_of_edited hfresh.room hedits ((hrun edits).symm.trans hafter)
  have hpossible {edits : List Edit} (hedits : ∀ e ∈ edits, Script.IsName e.script) :
      (∃ after, run edits = .ok after) ↔ ArePossible start.contents edits := by
    rw [hrun]
    exact hholds.exists_edited_iff hfresh.room hedits
  refine ⟨hpossible hedits, fun after hafter => ⟨htracks hedits hafter, ?other, ?order⟩⟩
  case other =>
    rintro before e rest rfl he after' hafter'
    have hothers : before ++ rest ⊆ before ++ e :: rest :=
      ((List.sublist_cons_self e rest).append_left before).subset
    have hedits' : ∀ e ∈ before ++ rest, Script.IsName e.script :=
      fun e' he' => hedits e' (hothers he')
    refine buildsAlike_of_load fun script hscript => ?_
    -- Only the latest step on a script counts, and the step that is left out is on another one.
    have hne : e.script ≠ script := fun heq => he (heq ▸ hscript)
    exact (htracks hedits hafter).load_eq (htracks hedits' hafter')
      (Script.isName_of_mem_catalog script hscript) (latest_append_cons_of_ne hne)
  case order =>
    rintro before e e' rest rfl hne
    have hperm : (before ++ e' :: e :: rest).Perm (before ++ e :: e' :: rest) :=
      (List.Perm.swap e e' rest).append_left before
    have hedits' : ∀ e'' ∈ before ++ e' :: e :: rest, Script.IsName e''.script :=
      fun e'' he'' => hedits e'' (hperm.mem_iff.1 he'')
    -- Two steps on different scripts are possible in one order exactly if they are in the other.
    obtain ⟨after', hafter'⟩ := (hpossible hedits').2
      (arePossible_append_swap hne ((hpossible hedits).1 ⟨after, hafter⟩))
    have hsame (script : String) (hscript : Script.IsName script) :=
      (htracks hedits hafter).load_eq (htracks hedits' hafter') hscript
        (congrFun (latest_append_swap hne) script)
    exact ⟨after', hafter', buildsAlike_of_load fun script hscript =>
      hsame script (Script.isName_of_mem_catalog script hscript), hsame⟩

/-- In a directory of its own below other folders, a script is written over with bytes that are no
    text, another one is removed and comes back empty, and one that is not in the catalog comes and
    goes; it cannot go again. -/
theorem tracks_edited_overwritten :
    let disk : Disk := ⟨.folder [("etc", .file [2]), ("tmp", .folder [(".tmpA1", .empty)])], []⟩
    let edits : List Edit := [.write "extra" [1], .write "reboot" [0xff],
      .remove "pre-boot-tuning", .remove "extra", .write "pre-boot-tuning" []]
    let run edits := prepared "/tmp/.tmpA1" .samples disk >>= fun ready =>
      edited "/tmp/.tmpA1" ready edits
    IsFresh disk "/tmp/.tmpA1" ∧ (∀ e ∈ edits, Script.IsName e.script) ∧
      ∃ after, run edits = .ok after ∧
        load after.read "/tmp/.tmpA1" "extra" = .error (.asset "extra"
          "/tmp/.tmpA1/scripts/extra.sh" .notFound) ∧
        loadAll after.read "/tmp/.tmpA1" = .ok [("pre-boot-tuning", []), ("reboot", [0xff])] ∧
        (∃ after', run (.write "reboot" [0xff] :: .write "extra" [1] :: edits.drop 2) = .ok after' ∧
          load after.read "/tmp/.tmpA1" "extra" = load after'.read "/tmp/.tmpA1" "extra") ∧
        ¬∃ again, run (edits ++ [.remove "extra"]) = .ok again := by
  intro disk edits run
  have hfresh : IsFresh disk "/tmp/.tmpA1" := ⟨rfl, by decide⟩
  have hedits : ∀ e ∈ edits, Script.IsName e.script := by decide
  have hagain : ∀ e ∈ edits ++ [.remove "extra"], Script.IsName e.script := by decide
  obtain ⟨hpossible, hruns⟩ := tracks_edited hfresh .samples hedits
  have harePossible : ArePossible Start.samples.contents edits := by
    simp only [edits, arePossible_cons]
    refine ⟨trivial, trivial, ?_, ?_, trivial, fun _ _ _ heq => by simp at heq⟩
    · simp [Edit.IsPossible, Edit.script, Start.contents]
    · simp [Edit.IsPossible, Edit.script, Edit.content?]
  obtain ⟨after, hafter⟩ := hpossible.2 harePossible
  obtain ⟨htracks, -, horder⟩ := hruns after hafter
  obtain ⟨after', hafter', hsame⟩ := horder [] _ _ _ rfl (by decide)
  refine ⟨hfresh, hedits, after, hafter, htracks.load "extra" (by decide),
    (htracks.loadAll_iff _).2 ?_, ⟨after', hafter', hsame.load "extra" (by decide)⟩, ?_⟩
  · exact .cons ⟨rfl, rfl⟩ (.cons ⟨rfl, rfl⟩ .nil)
  · -- The script is not there any more when it is removed again.
    rw [(tracks_edited hfresh .samples hagain).1]
    exact fun h => h edits "extra" [] rfl rfl

end

end MachineTuning.Assets
