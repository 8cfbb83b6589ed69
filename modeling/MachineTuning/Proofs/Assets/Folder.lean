import Mathlib.Logic.Function.Basic
import MachineTuning.Proofs.Assets
import MachineTuning.Proofs.Files

namespace MachineTuning

/-!
# Assets — the folder of the scripts

Each script has a file of its own in one folder of an asset directory.  `Assets.Holds` says which
scripts are there and with which bytes; nothing else on the disk matters to what is loaded.

* `Assets.holds_makeFolder` — in an empty folder an asset directory without scripts is made;
* `Assets.Holds.read_scriptPath` — reading at the path of a script gives the bytes of the script;
* `Assets.Holds.writeFile`, `Assets.Holds.removeFile` — a change there changes that script alone.
-/

namespace Script

/-- A name of a script: one part of a path, with room for the ending of a file name. -/
structure IsName (script : String) : Prop where
  slash : '/' ∉ script.toList
  nul : '\x00' ∉ script.toList
  short : Text.byteCount script ≤ 252

/-- Whether a text names a script can be computed. -/
instance (script : String) : Decidable (IsName script) :=
  decidable_of_iff ('/' ∉ script.toList ∧ '\x00' ∉ script.toList ∧ Text.byteCount script ≤ 252)
    ⟨fun h => ⟨h.1, h.2.1, h.2.2⟩, fun h => ⟨h.1, h.2, h.3⟩⟩

/-- The scripts of the catalog have such names. -/
theorem isName_of_mem_catalog : ∀ script ∈ catalog, IsName script := by decide

/-- The name of a script's file, character by character. -/
theorem toList_fileName (script : String) :
    (fileName script).toList = script.toList ++ ['.', 's', 'h'] := by
  simp [fileName, fileExtension]

/-- The ending of a file name keeps it from being taken for something else. -/
theorem IsName.isName_fileName {script : String} (h : IsName script) :
    FileTree.IsName (fileName script) := by
  have hlength : ¬ (fileName script).length ≤ 2 := by
    rw [← String.length_toList, toList_fileName]
    simp
  have hending : Text.byteLength ['.', 's', 'h'] = 3 := rfl
  have hshort := h.short
  refine ⟨fun heq => ?_, fun heq => ?_, fun heq => ?_, ?_⟩
  · exact hlength (heq ▸ by decide)
  · exact hlength (heq ▸ by decide)
  · exact hlength (heq ▸ by decide)
  · rw [Text.byteCount] at hshort ⊢
    rw [toList_fileName, Text.byteLength_append, hending, FileTree.maxName]
    omega

/-- A file name is one part of a path if the name of the script is. -/
theorem IsName.slash_fileName {script : String} (h : IsName script) :
    '/' ∉ (fileName script).toList := by
  simpa [toList_fileName] using h.slash

end Script

namespace Assets

/-- A place for an asset directory: an empty folder whose path leaves room for the paths of
    scripts. -/
structure IsFresh (disk : Disk) (directory : String) : Prop where
  empty : disk.at? directory = .ok (.folder [])
  room : Text.byteCount directory + Text.byteCount "/scripts/" + 255 ≤ 4095

/-- The folder of the scripts holds a file for each script that has some content, and nothing under
    the names of the others. -/
def Holds (directory : String) (contents : String → Option (List UInt8)) (disk : Disk) : Prop :=
  ∃ way entries, disk.locate (joinPath directory Script.assetFolder) = .ok way ∧
    disk.root.follow way = some (.folder entries) ∧
    ∀ script, entries.lookup (Script.fileName script) = (contents script).map .file

section

variable {directory script : String} {contents : String → Option (List UInt8)} {disk : Disk}

/-- The folder of the scripts has a name that a folder can have. -/
theorem isName_assetFolder : FileTree.IsName Script.assetFolder :=
  ⟨by decide, by decide, by decide, by decide⟩

/-- No slash stands in the name of the folder of the scripts. -/
theorem slash_assetFolder : '/' ∉ Script.assetFolder.toList := by decide

/-- The folder of the scripts is made in an empty folder. -/
theorem holds_makeFolder (h : IsFresh disk directory) : ∃ prepared,
    disk.makeFolder (joinPath directory Script.assetFolder) = .ok prepared ∧
      Holds directory (fun _ => none) prepared := by
  obtain ⟨way, hway, hentries⟩ := Disk.at?_eq_ok_iff.1 h.empty
  obtain ⟨hnul, -, -⟩ := Disk.checkPath_eq_ok_iff.1 (Disk.checkPath_of_locate hway)
  have hpath : Disk.checkPath (joinPath directory Script.assetFolder) = .ok () := by
    have hcount := byteCount_joinPath_le directory slash_assetFolder
    have hroom := h.room
    have hslashes : Text.byteCount "/scripts/" = Text.byteCount Script.assetFolder + 2 := rfl
    rw [Disk.checkPath_eq_ok_iff, notMem_joinPath slash_assetFolder (by decide), Disk.maxPath]
    exact ⟨⟨hnul, by decide⟩, joinPath_ne_empty slash_assetFolder (by decide), by omega⟩
  refine ⟨_, Disk.makeFolder_joinPath hway hentries rfl isName_assetFolder slash_assetFolder hpath,
    way ++ [Script.assetFolder], [], ?_, ?_, fun _ => rfl⟩
  · -- The path still leads to the directory, and the name of the folder leads on from there.
    have hkeeps : disk.root.KeepsFolders
        (disk.root.alter (FileTree.setEntry Script.assetFolder .empty) way) :=
      FileTree.keepsFolders_alter hentries nofun
    have hfollow := FileTree.follow_alter hentries (FileTree.setEntry Script.assetFolder .empty)
    rw [Disk.locate_joinPath (Disk.locate_of_keepsFolders hway ⟨_, hentries⟩ hkeeps)
      slash_assetFolder hpath, FileTree.step_of_isName isName_assetFolder hfollow,
      FileTree.lookup_setEntry, if_pos rfl]
    rfl
  · rw [FileTree.follow_concat (FileTree.follow_alter hentries _), FileTree.lookup_setEntry,
      if_pos rfl]
    rfl

/-! ### Scripts on a disk -/

/-- The path of a script is a path, if the directory leaves room. -/
theorem Holds.checkPath_scriptPath (h : Holds directory contents disk)
    (hroom : Text.byteCount directory + Text.byteCount "/scripts/" + 255 ≤ 4095)
    (hscript : Script.IsName script) : Disk.checkPath (scriptPath directory script) = .ok () := by
  obtain ⟨way, entries, hway, -, -⟩ := h
  obtain ⟨hnul, -, -⟩ := Disk.checkPath_eq_ok_iff.1 (Disk.checkPath_of_locate hway)
  have hname := hscript.isName_fileName
  have hslash := hscript.slash_fileName
  have hnul' : '\x00' ∉ (Script.fileName script).toList := by
    simpa [Script.toList_fileName] using hscript.nul
  -- The folder and the name of the file each add a slash and themselves.
  have hfolder := byteCount_joinPath_le directory slash_assetFolder
  have hfile := byteCount_joinPath_le (joinPath directory Script.assetFolder) hslash
  have hslashes : Text.byteCount "/scripts/" = Text.byteCount Script.assetFolder + 2 := rfl
  have hshort : Text.byteCount (Script.fileName script) ≤ 255 := hname.short
  rw [scriptPath, Disk.checkPath_eq_ok_iff, notMem_joinPath hslash (by decide), Disk.maxPath]
  exact ⟨⟨hnul, hnul'⟩, joinPath_ne_empty hslash hname.ne_empty, by omega⟩

variable (hroom : Text.byteCount directory + Text.byteCount "/scripts/" + 255 ≤ 4095)
  (hscript : Script.IsName script) (h : Holds directory contents disk)
include hroom hscript h

/-- Where the path of a script leads. -/
theorem Holds.locate_scriptPath {way : List String}
    (hway : disk.locate (joinPath directory Script.assetFolder) = .ok way) :
    disk.locate (scriptPath directory script) =
      if (contents script).isNone then .error .notFound
      else .ok (way ++ [Script.fileName script]) := by
  have hpath := h.checkPath_scriptPath hroom hscript
  obtain ⟨way', entries, hway', hentries, hcontents⟩ := h
  obtain rfl := Except.ok.inj (hway.symm.trans hway')
  rw [scriptPath, Disk.locate_joinPath hway hscript.slash_fileName hpath,
    FileTree.step_of_isName hscript.isName_fileName hentries, hcontents, Option.isNone_map]

/-- At the path of a script stands its file. -/
theorem Holds.at?_scriptPath : disk.at? (scriptPath directory script) =
    (contents script).elim (.error .notFound) fun content => .ok (.file content) := by
  obtain ⟨way, entries, hway, hentries, hcontents⟩ := id h
  have hfile := FileTree.follow_concat hentries (Script.fileName script)
  rw [Disk.at?, h.locate_scriptPath hroom hscript hway]
  rw [hcontents] at hfile
  cases hcontent : contents script with
  | none => rfl
  | some content =>
    rw [hcontent] at hfile
    simp [bind, Except.bind, hfile]

/-- **What is read** at the path of a script are its bytes. -/
theorem Holds.read_scriptPath : disk.read (scriptPath directory script) =
    (contents script).elim (.error .notFound) .ok := by
  rw [Disk.read, h.at?_scriptPath hroom hscript]
  cases contents script <;> rfl

omit hroom hscript h in
/-- A change in the folder of the scripts to what stands under the name of one file changes that
    script alone. -/
theorem holds_alter {way : List String} {entries : List (String × FileTree)}
    (hway : disk.locate (joinPath directory Script.assetFolder) = .ok way)
    (hentries : disk.root.follow way = some (.folder entries))
    (hcontents : ∀ script, entries.lookup (Script.fileName script) = (contents script).map .file)
    {change : List (String × FileTree) → List (String × FileTree)} (content? : Option (List UInt8))
    (hchange : ∀ name, (change entries).lookup name =
      if name = Script.fileName script then content?.map .file else entries.lookup name) :
    Holds directory (Function.update contents script content?)
      { disk with root := disk.root.alter change way } := by
  refine ⟨way, change entries, Disk.locate_of_keepsFolders hway ⟨entries, hentries⟩
    (FileTree.keepsFolders_alter hentries ?folders), FileTree.follow_alter hentries change,
    ?contents⟩
  -- What stands under the name is a file if anything does, so that the folders stay and the path
  -- leads to the same place as before.
  case folders =>
    intro name inner hinner
    have hne : name ≠ Script.fileName script := by
      rintro rfl
      rw [hcontents] at hinner
      cases hcontent : contents script <;> rw [hcontent] at hinner <;> cases hinner
    rw [hchange, if_neg hne, hinner]
  case contents =>
    intro other
    rw [hchange, Function.update_apply, hcontents]
    simp only [Script.fileName_inj]
    by_cases hother : other = script
    · rw [if_pos hother, if_pos hother]
    · rw [if_neg hother, if_neg hother]

/-- **A script that is written** has the bytes written, the others keep theirs. -/
theorem Holds.writeFile (content : List UInt8) : ∃ written,
    disk.writeFile (scriptPath directory script) content = .ok written ∧
      Holds directory (Function.update contents script (some content)) written := by
  have hpath := h.checkPath_scriptPath hroom hscript
  obtain ⟨way, entries, hway, hentries, hcontents⟩ := h
  have hslot : disk.slot (scriptPath directory script) = .ok (way, Script.fileName script) :=
    Disk.slot_joinPath hway ⟨entries, hentries⟩ hscript.isName_fileName hscript.slash_fileName hpath
  have hfile := FileTree.follow_concat hentries (Script.fileName script)
  rw [hcontents] at hfile
  refine ⟨_, ?_, holds_alter hway hentries hcontents (some content)
    fun name => FileTree.lookup_setEntry _ name (.file content) entries⟩
  simp only [Disk.writeFile, hslot, bind, Except.bind, hfile]
  -- The file is made or written over; no folder is in its place.
  cases contents script <;> rfl

/-- **A script that is removed** has no content, the others keep theirs. -/
theorem Holds.removeFile {content : List UInt8} (hcontent : contents script = some content) :
    ∃ removed, disk.removeFile (scriptPath directory script) = .ok removed ∧
      Holds directory (Function.update contents script none) removed := by
  have hlocate {way : List String}
      (hway : disk.locate (joinPath directory Script.assetFolder) = .ok way) :
      disk.locate (scriptPath directory script) = .ok (way ++ [Script.fileName script]) := by
    rw [h.locate_scriptPath hroom hscript hway, hcontent]
    rfl
  obtain ⟨way, entries, hway, hentries, hcontents⟩ := h
  have hfile := FileTree.follow_concat hentries (Script.fileName script)
  rw [hcontents, hcontent] at hfile
  refine ⟨_, ?_, holds_alter hway hentries hcontents none
    fun name => FileTree.lookup_filter_ne (Script.fileName script) name entries⟩
  simp only [Disk.removeFile, hlocate hway, bind, Except.bind, hfile, Option.map_some,
    List.getLast?_concat, List.dropLast_concat]

/-- A script that is not there cannot be removed. -/
theorem Holds.removeFile_of_none (hnone : contents script = none) :
    disk.removeFile (scriptPath directory script) = .error .notFound := by
  obtain ⟨way, entries, hway, -, -⟩ := id h
  rw [Disk.removeFile, h.locate_scriptPath hroom hscript hway, hnone]
  rfl

end

end Assets
end MachineTuning
