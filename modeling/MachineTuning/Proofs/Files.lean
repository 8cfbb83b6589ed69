import MachineTuning.Files
import MachineTuning.KeyMap
import MachineTuning.Proofs.Outcome

namespace MachineTuning

/-!
# Files — where a path leads, and what a change leaves behind it

A path is followed piece by piece through the folders of a disk, and a change alters the entries of
one of these folders.  Where the change leaves folders what they are, all paths to folders lead
where they led before.

* `FileTree.follow_alter` — a change of a folder changes the entries of that folder;
* `FileTree.foldlM_step_of_keepsFolders` — and paths to folders stay as they are;
* `Disk.locate_joinPath`, `Disk.slot_joinPath` — a name behind a path to a folder leads to an entry
  of the folder.
-/

namespace FileTree

/-! ### Entries of a folder -/

/-- An entry that is set changes what stands under its name and nothing else. -/
theorem lookup_setEntry (name other : String) (tree : FileTree)
    (entries : List (String × FileTree)) : (setEntry name tree entries).lookup other =
      if other = name then some tree else entries.lookup other := by
  induction entries with
  | nil => rw [setEntry, KeyMap.lookup_cons]
  | cons entry entries ih =>
    rw [setEntry]
    by_cases hname : entry.1 = name
    · rw [if_pos hname, KeyMap.lookup_cons, KeyMap.lookup_cons, hname]
      by_cases hother : other = name
      · rw [if_pos hother, if_pos hother]
      · rw [if_neg hother, if_neg hother, if_neg hother]
    · rw [if_neg hname, KeyMap.lookup_cons, KeyMap.lookup_cons, ih]
      by_cases hother : other = entry.1
      · have hne : other ≠ name := fun h => hname (hother ▸ h)
        rw [if_pos hother, if_neg hne, if_pos hother]
      · rw [if_neg hother, if_neg hother]

/-- Entries that are taken away leave the others. -/
theorem lookup_filter_ne (name other : String) (entries : List (String × FileTree)) :
    (entries.filter fun entry => some name ≠ some entry.1).lookup other =
      if other = name then none else entries.lookup other := by
  induction entries with
  | nil => simp
  | cons entry entries ih =>
    rw [KeyMap.lookup_cons]
    by_cases hname : entry.1 = name
    · rw [List.filter_cons_of_neg (by simpa using hname.symm), ih]
      by_cases hother : other = name
      · rw [if_pos hother, if_pos hother]
      · rw [if_neg hother, if_neg hother, if_neg (hname ▸ hother)]
    · rw [List.filter_cons_of_pos (by simpa using Ne.symm hname), KeyMap.lookup_cons, ih]
      by_cases hother : other = entry.1
      · rw [if_pos hother, if_pos hother, if_neg (hother ▸ hname)]
      · rw [if_neg hother, if_neg hother]

/-! ### Ways of names -/

/-- A way is followed one part after the other. -/
theorem follow_append (way rest : List String) (tree : FileTree) :
    follow (way ++ rest) tree = (follow way tree).bind (follow rest) := by
  induction way generalizing tree with
  | nil => rfl
  | cons name way ih =>
    cases tree with
    | file content => rfl
    | folder entries =>
      rw [List.cons_append, follow, follow, Option.bind_assoc]
      exact congrArg _ (funext ih)

/-- Behind the way to a folder stand its entries. -/
theorem follow_concat {way : List String} {root : FileTree} {entries : List (String × FileTree)}
    (h : follow way root = some (.folder entries)) (name : String) :
    follow (way ++ [name]) root = entries.lookup name := by
  rw [follow_append, h]
  exact Option.bind_fun_some (entries.lookup name)

/-- **A change of a folder** changes the entries of that folder. -/
theorem follow_alter {way : List String} {root : FileTree} {entries : List (String × FileTree)}
    (h : follow way root = some (.folder entries))
    (change : List (String × FileTree) → List (String × FileTree)) :
    follow way (alter change way root) = some (.folder (change entries)) := by
  induction way generalizing root with
  | nil =>
    obtain rfl := Option.some.inj h
    rfl
  | cons name way ih =>
    cases root with
    | file content => cases h
    | folder outer =>
      obtain ⟨next, hnext, hrest⟩ := Option.bind_eq_some_iff.1 h
      simp [alter, hnext, follow, lookup_setEntry, ih hrest]

/-- A way leads to a folder. -/
def IsFolder (root : FileTree) (way : List String) : Prop :=
  ∃ entries, follow way root = some (.folder entries)

/-- Where there are folders in one tree, there are folders in the other. -/
def KeepsFolders (root root' : FileTree) : Prop :=
  ∀ way, IsFolder root way → IsFolder root' way

/-- A change of the entries that leaves the folders among them alone keeps all folders. -/
theorem keepsFolders_alter {way : List String} {root : FileTree}
    {entries : List (String × FileTree)} (h : follow way root = some (.folder entries))
    {change : List (String × FileTree) → List (String × FileTree)}
    (hchange : ∀ name inner, entries.lookup name = some (.folder inner) →
      (change entries).lookup name = some (.folder inner)) :
    KeepsFolders root (alter change way root) := by
  -- The induction is on the way to the folder that is changed; another way either leaves it at
  -- some name, and what is there has not changed, or goes along with it.
  induction way generalizing root with
  | nil =>
    obtain rfl := Option.some.inj h
    rintro other ⟨inner, hinner⟩
    cases other with
    | nil => exact ⟨change entries, rfl⟩
    | cons name rest =>
      obtain ⟨next, hnext, hrest⟩ := Option.bind_eq_some_iff.1 hinner
      cases next with
      | file content => cases rest <;> cases hrest
      | folder nested =>
        refine ⟨inner, ?_⟩
        show ((change entries).lookup name).bind (follow rest) = _
        rw [hchange name nested hnext]
        exact hrest
  | cons first way ih =>
    cases root with
    | file content => cases h
    | folder outer =>
      obtain ⟨next, hnext, hway⟩ := Option.bind_eq_some_iff.1 h
      have halter : alter change (first :: way) (.folder outer) =
          .folder (setEntry first (alter change way next) outer) := by
        rw [alter, hnext]
      rintro other ⟨inner, hinner⟩
      rw [halter]
      cases other with
      | nil => exact ⟨_, rfl⟩
      | cons name rest =>
        obtain ⟨there, hthere, hrest⟩ := Option.bind_eq_some_iff.1 hinner
        by_cases hname : name = first
        · subst hname
          obtain rfl := Option.some.inj (hnext.symm.trans hthere)
          obtain ⟨inner', hinner'⟩ := ih hway rest ⟨inner, hrest⟩
          exact ⟨inner', by simpa [follow, lookup_setEntry] using hinner'⟩
        · exact ⟨inner, by simpa [follow, lookup_setEntry, hname, hthere] using hrest⟩

/-! ### Pieces of a path -/

/-- A name that leads from a folder to one of its entries. -/
structure IsName (name : String) : Prop where
  ne_empty : name ≠ ""
  ne_here : name ≠ "."
  ne_parent : name ≠ ".."
  short : Text.byteCount name ≤ maxName

/-- A name leads from a folder to the entry of that name, if there is one. -/
theorem step_of_isName {name : String} (hname : IsName name) {root : FileTree} {way : List String}
    {entries : List (String × FileTree)} (h : follow way root = some (.folder entries)) :
    root.step way name =
      if (entries.lookup name).isNone then .error .notFound else .ok (way ++ [name]) := by
  have hshort : ¬ maxName < Text.byteCount name := Nat.not_lt.2 hname.short
  simp only [step, h, hname.ne_empty, hname.ne_here, hname.ne_parent, hshort, or_self, if_false]

/-- An empty piece, as between two slashes, leads nowhere else. -/
theorem eq_of_step_empty {root : FileTree} {way way' : List String}
    (h : root.step way "" = .ok way') : way = way' := by
  rw [step] at h
  split at h
  · cases h
  · cases h
  · exact Except.ok.inj h

/-- Pieces lead on from folders only. -/
theorem isFolder_of_step {root : FileTree} {way way' : List String} {piece : String}
    (h : root.step way piece = .ok way') : IsFolder root way := by
  rw [step] at h
  split at h
  · cases h
  · cases h
  · exact ⟨_, ‹_›⟩

/-- Pieces that lead to a folder start at a folder. -/
theorem isFolder_of_foldlM {root : FileTree} {pieces way way' : List String}
    (h : pieces.foldlM root.step way = .ok way') (hfolder : IsFolder root way') :
    IsFolder root way := by
  cases pieces with
  | nil =>
    obtain rfl := Except.ok.inj h
    exact hfolder
  | cons piece pieces =>
    obtain ⟨next, hnext, -⟩ := Outcome.bind_eq_ok_iff.1 h
    exact isFolder_of_step hnext

/-- A step to a folder is the same where folders are kept. -/
theorem step_of_keepsFolders {root root' : FileTree} (hkeeps : KeepsFolders root root')
    {way way' : List String} {piece : String} (h : root.step way piece = .ok way')
    (hfolder : IsFolder root way') : root'.step way piece = .ok way' := by
  obtain ⟨entries, hentries⟩ := isFolder_of_step h
  obtain ⟨entries', hentries'⟩ := hkeeps way ⟨entries, hentries⟩
  simp only [step, hentries] at h
  simp only [step, hentries']
  by_cases hhere : piece = "" ∨ piece = "."
  · rwa [if_pos hhere] at h ⊢
  rw [if_neg hhere] at h ⊢
  by_cases hparent : piece = ".."
  · rwa [if_pos hparent] at h ⊢
  rw [if_neg hparent] at h ⊢
  by_cases hlong : maxName < Text.byteCount piece
  · rw [if_pos hlong] at h
    cases h
  rw [if_neg hlong] at h ⊢
  by_cases hnone : (entries.lookup piece).isNone
  · rw [if_pos hnone] at h
    cases h
  rw [if_neg hnone] at h
  -- The entry is a folder, so it is still there.
  obtain rfl := Except.ok.inj h
  obtain ⟨inner, hinner⟩ := hkeeps _ hfolder
  rw [follow_concat hentries'] at hinner
  rw [hinner]
  rfl

/-- **A path to a folder** leads to it where folders are kept. -/
theorem foldlM_step_of_keepsFolders {root root' : FileTree} (hkeeps : KeepsFolders root root')
    {pieces way way' : List String} (h : pieces.foldlM root.step way = .ok way')
    (hfolder : IsFolder root way') : pieces.foldlM root'.step way = .ok way' := by
  induction pieces generalizing way with
  | nil => exact h
  | cons piece pieces ih =>
    obtain ⟨next, hnext, hrest⟩ := Outcome.bind_eq_ok_iff.1 h
    have hstep := step_of_keepsFolders hkeeps hnext (isFolder_of_foldlM hrest hfolder)
    rw [List.foldlM_cons, hstep]
    exact ih hrest

/-- Where there is a path to follow, no folder is made. -/
theorem foldlM_makeStep {root : FileTree} {pieces way way' : List String}
    (h : pieces.foldlM root.step way = .ok way') :
    pieces.foldlM makeStep (root, way) = .ok (root, way') := by
  induction pieces generalizing way with
  | nil =>
    obtain rfl := Except.ok.inj h
    rfl
  | cons piece pieces ih =>
    obtain ⟨next, hnext, hrest⟩ := Outcome.bind_eq_ok_iff.1 h
    have hstep : makeStep (root, way) piece = .ok (root, next) := by rw [makeStep, hnext]
    rw [List.foldlM_cons, hstep]
    exact ih hrest

end FileTree

/-! ### Joined paths -/

section

variable {base name : String}

/-- A single name does not start at the top. -/
theorem isAbsolute_of_notMem (hslash : '/' ∉ name.toList) : isAbsolute name = false := by
  rw [isAbsolute, decide_eq_false_iff_not]
  exact fun h => hslash (List.mem_of_mem_head? h)

/-- Between a path and a name behind it stands a slash, unless one is there or the path is empty. -/
theorem joinPath_eq_or (base : String) (hslash : '/' ∉ name.toList) :
    joinPath base name = base ++ name ∧ (base = "" ∨ base.toList.getLast? = some '/') ∨
      joinPath base name = base ++ "/" ++ name := by
  rw [joinPath, isAbsolute_of_notMem hslash, if_neg Bool.false_ne_true]
  by_cases hbase : base.isEmpty ∨ base.toList.getLast? = some '/'
  · exact .inl ⟨if_pos hbase, hbase.imp_left String.isEmpty_iff.1⟩
  · exact .inr (if_neg hbase)

/-- A path with a name behind it starts as it does without. -/
theorem isAbsolute_joinPath (hbase : base ≠ "") (hslash : '/' ∉ name.toList) :
    isAbsolute (joinPath base name) = isAbsolute base := by
  obtain ⟨c, cs, hc⟩ := List.exists_cons_of_ne_nil (mt String.toList_eq_nil_iff.1 hbase)
  rcases joinPath_eq_or base hslash with ⟨heq, -⟩ | heq
  · rw [heq, isAbsolute, isAbsolute, String.toList_append, hc]
    rfl
  · rw [heq, isAbsolute, isAbsolute, String.toList_append, String.toList_append, hc]
    rfl

/-- The characters of a path with a name behind it are those of both and a slash. -/
theorem notMem_joinPath (hslash : '/' ∉ name.toList) {c : Char} (hc : c ≠ '/') :
    c ∉ (joinPath base name).toList ↔ c ∉ base.toList ∧ c ∉ name.toList := by
  rcases joinPath_eq_or base hslash with ⟨heq, -⟩ | heq
  · simp [heq]
  · simp [heq, hc]

/-- A path with a name behind it is not empty. -/
theorem joinPath_ne_empty (hslash : '/' ∉ name.toList) (hname : name ≠ "") :
    joinPath base name ≠ "" := by
  rcases joinPath_eq_or base hslash with ⟨heq, -⟩ | heq
  · simp [heq, hname]
  · simp [heq, hname]

/-- Joining adds at most a slash. -/
theorem byteCount_joinPath_le (base : String) (hslash : '/' ∉ name.toList) :
    Text.byteCount (joinPath base name) ≤ Text.byteCount base + 1 + Text.byteCount name := by
  have hone : Text.byteCount "/" = 1 := rfl
  rcases joinPath_eq_or base hslash with ⟨heq, -⟩ | heq
  · rw [heq, Text.byteCount_append]
    omega
  · rw [heq, Text.byteCount_append, Text.byteCount_append]
    omega

/-- A path with a name behind it ends with the name. -/
theorem getLast?_joinPath (hslash : '/' ∉ name.toList) (hname : name ≠ "") :
    (joinPath base name).toList.getLast? = name.toList.getLast? := by
  have hne : name.toList ≠ [] := mt String.toList_eq_nil_iff.1 hname
  rcases joinPath_eq_or base hslash with ⟨heq, -⟩ | heq
  · rw [heq, String.toList_append, List.getLast?_append_of_ne_nil _ hne]
  · rw [heq, String.toList_append, List.getLast?_append_of_ne_nil _ hne]

/-- The last piece of a path with a name behind it is the name, and the pieces in front of it lead
    where the path leads. -/
theorem exists_split_joinPath (hbase : base ≠ "") (hslash : '/' ∉ name.toList) {root : FileTree}
    {start way : List String} (h : (Text.split '/' base).foldlM root.step start = .ok way) :
    ∃ pieces, Text.split '/' (joinPath base name) = pieces ++ [name] ∧
      pieces.foldlM root.step start = .ok way := by
  have hname : Text.split '/' name = [name] := by
    rw [Text.split, Text.splitChars_of_notMem hslash, List.map_singleton, String.ofList_toList]
  rcases joinPath_eq_or base hslash with ⟨heq, hempty | hlast⟩ | heq
  · exact absurd hempty hbase
  · -- The path ends with a slash, so that its last piece is empty.
    obtain ⟨front, hfront⟩ : ∃ front, base.toList = front ++ ['/'] :=
      List.getLast?_eq_some_iff.1 hlast
    have hsplit : Text.split '/' base =
        (Text.splitChars '/' front).map String.ofList ++ [""] := by
      rw [Text.split, hfront, Text.splitChars_append, List.map_append]
      rfl
    refine ⟨(Text.splitChars '/' front).map String.ofList, ?_, ?_⟩
    · rw [heq, ← hname, Text.split, Text.split, String.toList_append, hfront, List.append_assoc,
        List.singleton_append, Text.splitChars_append, List.map_append]
    · rw [hsplit, List.foldlM_append] at h
      obtain ⟨way', hway', hrest⟩ := Outcome.bind_eq_ok_iff.1 h
      obtain ⟨_, hstep, hpure⟩ := Outcome.bind_eq_ok_iff.1 hrest
      obtain rfl := Except.ok.inj hpure
      rw [hway', FileTree.eq_of_step_empty hstep]
  · refine ⟨Text.split '/' base, ?_, h⟩
    rw [← hname, heq, Text.split, Text.split, Text.split, String.toList_append,
      String.toList_append, List.append_assoc, ← List.map_append, ← Text.splitChars_append]
    rfl

end

/-! ### Disks -/

namespace Disk

variable {disk : Disk} {base name : String} {way : List String}

/-- What is a path: a text that is not empty, not too long, and without the character that ends a
    path. -/
theorem checkPath_eq_ok_iff {path : String} : checkPath path = .ok () ↔
    '\x00' ∉ path.toList ∧ path ≠ "" ∧ Text.byteCount path ≤ maxPath := by
  rw [checkPath, ← Nat.not_lt, ne_eq, ← String.isEmpty_iff]
  by_cases hnul : path.toList.contains '\x00'
  · simp_all
  · by_cases hempty : path.isEmpty
    · simp_all
    · by_cases hlong : maxPath < Text.byteCount path <;> simp_all

/-- A path that leads somewhere is no longer than a path may be. -/
theorem checkPath_of_locate (h : disk.locate base = .ok way) : checkPath base = .ok () := by
  obtain ⟨_, hcheck, -⟩ := Outcome.bind_eq_ok_iff.1 h
  exact hcheck

/-- The empty path leads nowhere. -/
theorem ne_empty_of_locate (h : disk.locate base = .ok way) : base ≠ "" :=
  (checkPath_eq_ok_iff.1 (checkPath_of_locate h)).2.1

/-- What stands at a path is found where the path leads. -/
theorem at?_eq_ok_iff {tree : FileTree} : disk.at? base = .ok tree ↔
    ∃ way, disk.locate base = .ok way ∧ disk.root.follow way = some tree := by
  rw [at?, Outcome.bind_eq_ok_iff]
  refine exists_congr fun way => and_congr_right fun _ => ?_
  cases disk.root.follow way <;> simp

/-- The pieces of a path with a name behind it. -/
theorem exists_split_of_locate (h : disk.locate base = .ok way) (hslash : '/' ∉ name.toList) :
    ∃ pieces, Text.split '/' (joinPath base name) = pieces ++ [name] ∧
      pieces.foldlM disk.root.step (disk.start (joinPath base name)) = .ok way := by
  obtain ⟨_, -, hpieces⟩ := Outcome.bind_eq_ok_iff.1 h
  rw [start, isAbsolute_joinPath (ne_empty_of_locate h) hslash]
  exact exists_split_joinPath (ne_empty_of_locate h) hslash hpieces

/-- **A name behind a path** leads on from where the path leads. -/
theorem locate_joinPath (h : disk.locate base = .ok way) (hslash : '/' ∉ name.toList)
    (hpath : checkPath (joinPath base name) = .ok ()) :
    disk.locate (joinPath base name) = disk.root.step way name := by
  obtain ⟨pieces, hsplit, hpieces⟩ := exists_split_of_locate h hslash
  rw [locate, hpath, hsplit, List.foldlM_append, hpieces]
  exact bind_pure (disk.root.step way name)

/-- **A name behind the path to a folder** is the place of an entry. -/
theorem slot_joinPath (h : disk.locate base = .ok way) (hfolder : disk.root.IsFolder way)
    (hname : FileTree.IsName name) (hslash : '/' ∉ name.toList)
    (hpath : checkPath (joinPath base name) = .ok ()) :
    disk.slot (joinPath base name) = .ok (way, name) := by
  obtain ⟨pieces, hsplit, hpieces⟩ := exists_split_of_locate h hslash
  obtain ⟨entries, hentries⟩ := hfolder
  have houter : (Text.split '/' (joinPath base name)).reverse.dropWhile (· = "") =
      name :: pieces.reverse := by
    rw [hsplit, List.reverse_concat, List.dropWhile_cons_of_neg (by simpa using hname.ne_empty)]
  have hlast : (joinPath base name).toList.getLast? ≠ some '/' := by
    rw [getLast?_joinPath hslash hname.ne_empty]
    exact fun hlast => hslash (List.mem_of_getLast? hlast)
  have hshort : ¬ FileTree.maxName < Text.byteCount name := Nat.not_lt.2 hname.short
  rw [slot, hpath]
  simp only [bind, Except.bind, houter, List.reverse_reverse, hpieces, hentries, hname.ne_here,
    hname.ne_parent, hlast, hshort, or_self, if_false]

/-- A folder is made behind the path to a folder that has no such entry. -/
theorem makeFolder_joinPath (h : disk.locate base = .ok way)
    {entries : List (String × FileTree)} (hentries : disk.root.follow way = some (.folder entries))
    (hnone : entries.lookup name = none) (hname : FileTree.IsName name)
    (hslash : '/' ∉ name.toList) (hpath : checkPath (joinPath base name) = .ok ()) :
    disk.makeFolder (joinPath base name) =
      .ok { disk with root := disk.root.alter (FileTree.setEntry name .empty) way } := by
  -- Every piece but the last is there already and leads to the folder; the last is made.
  obtain ⟨pieces, hsplit, hpieces⟩ := exists_split_of_locate h hslash
  have hempty : ¬ (joinPath base name).isEmpty :=
    mt String.isEmpty_iff.1 (checkPath_eq_ok_iff.1 hpath).2.1
  have hstep : FileTree.makeStep (disk.root, way) name =
      .ok (disk.root.alter (FileTree.setEntry name .empty) way, way ++ [name]) := by
    rw [FileTree.makeStep, FileTree.step_of_isName hname hentries, hnone]
    rfl
  have hmade : (disk.root.alter (FileTree.setEntry name .empty) way).follow (way ++ [name]) =
      some (.folder []) := by
    rw [FileTree.follow_concat (FileTree.follow_alter hentries _), FileTree.lookup_setEntry,
      if_pos rfl]
    rfl
  rw [makeFolder, if_neg hempty, hpath, hsplit]
  simp only [List.foldlM_append, FileTree.foldlM_makeStep hpieces, List.foldlM_cons,
    List.foldlM_nil, bind, Except.bind, pure, Except.pure, hstep, hmade]

/-- A path to a folder leads to it on another disk on which folders are kept. -/
theorem locate_of_keepsFolders (h : disk.locate base = .ok way)
    (hfolder : disk.root.IsFolder way) {root : FileTree}
    (hkeeps : disk.root.KeepsFolders root) :
    { disk with root }.locate base = .ok way := by
  obtain ⟨_, hcheck, hpieces⟩ := Outcome.bind_eq_ok_iff.1 h
  rw [locate, hcheck]
  exact FileTree.foldlM_step_of_keepsFolders hkeeps hpieces hfolder

end Disk

end MachineTuning
