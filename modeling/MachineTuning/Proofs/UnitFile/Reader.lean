import MachineTuning.Proofs.UnitFile.Grouping
import MachineTuning.Text.Split
import MachineTuning.UnitFile.Tuning

namespace MachineTuning.UnitFile

/-!
# Unit files — what a reader finds in the text

The reader goes by lines: a blank line is passed over, a line in square brackets opens a section,
and any other line is a key and a value.  `UnitFile.read` is that reader.

* `read_text` — the text of plain directives reads back as the directives, brought together by
  section;
* `read_text_eq_iff` — with plain names, this holds exactly where no value breaks its line.
-/

/-! ### The reader -/

/-- A line as a directive of a section: the key up to the first equals sign, the value behind. -/
def directiveOfLine (sectionName : String) (line : List Char) : Directive :=
  ⟨sectionName, String.ofList (Text.cut '=' line).1, String.ofList (Text.cut '=' line).2⟩

/-- The directives that lines spell, the first of them within a section. -/
def readLines (sectionName : String) : List (List Char) → List Directive
  | [] => []
  | line :: lines =>
    if line.all Char.isWhitespace then readLines sectionName lines
    else if line.head? = some '[' then readLines (String.ofList line.tail.dropLast) lines
    else directiveOfLine sectionName line :: readLines sectionName lines

/-- The directives that a text spells.  Lines in front of the first header belong to the section
    without a name. -/
def read (text : String) : List Directive :=
  readLines "" (Text.splitChars '\n' text.toList)

end UnitFile

/-- The section and the key cannot be taken for something else: they stay on their line, the key
    ends where it ends and does not look like a header. -/
structure Directive.HasPlainName (d : Directive) : Prop where
  sectionName_line : '\n' ∉ d.sectionName.toList
  key_line : '\n' ∉ d.key.toList
  key_equals : '=' ∉ d.key.toList
  key_bracket : d.key.toList.head? ≠ some '['

/-- A directive whose name is plain and whose value stays on its line. -/
structure Directive.IsPlain (d : Directive) : Prop extends d.HasPlainName where
  value_line : '\n' ∉ d.value.toList

/-- Whether a directive has a plain name can be computed. -/
instance (d : Directive) : Decidable d.HasPlainName :=
  decidable_of_iff ('\n' ∉ d.sectionName.toList ∧ '\n' ∉ d.key.toList ∧ '=' ∉ d.key.toList ∧
      d.key.toList.head? ≠ some '[')
    ⟨fun h => ⟨h.1, h.2.1, h.2.2.1, h.2.2.2⟩, fun h => ⟨h.1, h.2, h.3, h.4⟩⟩

/-- Whether a directive is plain can be computed. -/
instance (d : Directive) : Decidable d.IsPlain :=
  decidable_of_iff (d.HasPlainName ∧ '\n' ∉ d.value.toList)
    ⟨fun h => ⟨h.1, h.2⟩, fun h => ⟨h.1, h.2⟩⟩

namespace UnitFile

/-! ### The text as lines -/

/-- The line that opens a section. -/
def headerLine (name : String) : List Char :=
  '[' :: name.toList ++ [']']

/-- The line of a directive. -/
def directiveLine (d : Directive) : List Char :=
  d.key.toList ++ '=' :: d.value.toList

/-- The lines of a section. -/
def groupLines (group : String × List Directive) : List (List Char) :=
  headerLine group.1 :: group.2.map directiveLine

/-- The lines of sections, with a blank line between two of them. -/
def separatedLines : List (String × List Directive) → List (List Char)
  | [] => []
  | [group] => groupLines group
  | group :: groups => groupLines group ++ [] :: separatedLines groups

/-- Lines as text, each with its end. -/
def joinLines (lines : List (List Char)) : List Char :=
  lines.flatMap (· ++ ['\n'])

/-- The characters of two lists of lines in a row. -/
theorem joinLines_append (lines lines' : List (List Char)) :
    joinLines (lines ++ lines') = joinLines lines ++ joinLines lines' :=
  List.flatMap_append

/-- The pieces of a group are the characters of its lines. -/
theorem flatMap_groupFragments (group : String × List Directive) :
    (groupFragments group).flatMap String.toList = joinLines (groupLines group) := by
  have hlines (ds : List Directive) :
      (ds.flatMap lineFragments).flatMap String.toList = joinLines (ds.map directiveLine) := by
    induction ds with
    | nil => rfl
    | cons d ds ih =>
      rw [List.flatMap_cons, List.flatMap_append, ih]
      simp [lineFragments, joinLines, directiveLine]
  rw [groupFragments, List.flatMap_append, hlines]
  simp [joinLines, groupLines, headerLine]

/-- The pieces of all groups are the characters of their lines. -/
theorem flatMap_separated (groups : List (String × List Directive)) :
    (separated groups).flatMap String.toList = joinLines (separatedLines groups) := by
  fun_induction separated groups with
  | case1 => rfl
  | case2 group => exact flatMap_groupFragments group
  | case3 group groups hne ih =>
    rw [separatedLines]
    · rw [List.flatMap_append, List.flatMap_cons, flatMap_groupFragments, ih, joinLines_append]
      rfl
    · exact hne

/-- A text is its lines. -/
theorem toList_text (ds : List Directive) :
    (text ds).toList = joinLines (separatedLines (grouped ds)) := by
  rw [text, String.toList_join, fragments, flatMap_separated]

/-- Lines that hold no line break are what a text is split into, with nothing behind the last. -/
theorem splitChars_joinLines {lines : List (List Char)} (h : ∀ line ∈ lines, '\n' ∉ line) :
    Text.splitChars '\n' (joinLines lines) = lines ++ [[]] := by
  induction lines with
  | nil => rfl
  | cons line lines ih =>
    obtain ⟨hline, hlines⟩ := List.forall_mem_cons.1 h
    have hcons : joinLines (line :: lines) = line ++ '\n' :: joinLines lines := by
      simp [joinLines]
    rw [hcons, Text.splitChars_append_cons hline, ih hlines]
    rfl

/-- What holds of the lines of each group and of the empty line holds of all lines. -/
theorem forall_mem_separatedLines {p : List Char → Prop} (hblank : p [])
    {groups : List (String × List Directive)}
    (h : ∀ group ∈ groups, ∀ line ∈ groupLines group, p line) :
    ∀ line ∈ separatedLines groups, p line := by
  fun_induction separatedLines groups with
  | case1 => simp
  | case2 group => exact h group List.mem_cons_self
  | case3 group groups hne ih =>
    obtain ⟨hgroup, hgroups⟩ := List.forall_mem_cons.1 h
    intro line hline
    rcases List.mem_append.1 hline with hline | hline
    · exact hgroup line hline
    · rcases List.mem_cons.1 hline with rfl | hline
      · exact hblank
      · exact ih hgroups line hline

/-- The lines of plain directives hold no line break. -/
theorem newline_notMem_separatedLines {ds : List Directive} (h : ∀ d ∈ ds, d.IsPlain) :
    ∀ line ∈ separatedLines (grouped ds), '\n' ∉ line := by
  refine forall_mem_separatedLines (by simp) fun group hgroup line hline => ?_
  rw [grouped_eq] at hgroup
  obtain ⟨name, hname, rfl⟩ := List.mem_map.1 hgroup
  rcases List.mem_cons.1 hline with rfl | hline
  · obtain ⟨d, hd, rfl⟩ := mem_sectionNames.1 hname
    simpa [headerLine] using (h d hd).sectionName_line
  · obtain ⟨d, hd, rfl⟩ := List.mem_map.1 hline
    have hplain := h d (mem_of_mem_inSection hd)
    simpa [directiveLine] using ⟨hplain.key_line, hplain.value_line⟩

/-! ### Reading lines -/

/-- An empty line says nothing. -/
theorem readLines_blank (name : String) (lines : List (List Char)) :
    readLines name ([] :: lines) = readLines name lines := rfl

/-- A header starts its section, whatever the section was before. -/
theorem readLines_header (name name' : String) (lines : List (List Char)) :
    readLines name (headerLine name' :: lines) = readLines name' lines := by
  have hhead : (headerLine name').head? = some '[' := rfl
  have hbody : (headerLine name').tail.dropLast = name'.toList := by simp [headerLine]
  have hblank : (headerLine name').all Char.isWhitespace = false := rfl
  rw [readLines, hblank, hhead, hbody, String.ofList_toList]
  rfl

/-- The line of a directive with a plain name is read as that directive. -/
theorem readLines_directive {d : Directive} (h : d.HasPlainName) (lines : List (List Char)) :
    readLines d.sectionName (directiveLine d :: lines) = d :: readLines d.sectionName lines := by
  -- The equals sign keeps the line from being blank, even without key and value.
  have hblank : (directiveLine d).all Char.isWhitespace = false := by
    rw [List.all_eq_false]
    exact ⟨'=', by simp [directiveLine], by decide⟩
  have hhead : (directiveLine d).head? ≠ some '[' := by
    have := h.key_bracket
    cases hkey : d.key.toList with
    | nil => simp [directiveLine, hkey]
    | cons c cs => simpa [directiveLine, hkey] using this
  have hline : directiveOfLine d.sectionName (directiveLine d) = d := by
    rw [directiveOfLine, directiveLine, Text.cut_append_cons h.key_equals]
    simp
  rw [readLines, hblank, if_neg (by simp), if_neg hhead, hline]

/-- The lines of a section are read as its directives. -/
theorem readLines_groupLines {group : String × List Directive} (name : String)
    (h : ∀ d ∈ group.2, d.sectionName = group.1 ∧ d.HasPlainName) (lines : List (List Char)) :
    readLines name (groupLines group ++ lines) = group.2 ++ readLines group.1 lines := by
  obtain ⟨name', ds⟩ := group
  rw [groupLines, List.cons_append, readLines_header]
  induction ds with
  | nil => rfl
  | cons d ds ih =>
    obtain ⟨⟨rfl, hd⟩, hds⟩ := List.forall_mem_cons.1 h
    rw [List.map_cons, List.cons_append, readLines_directive hd, ih hds]
    rfl

/-- The lines of sections are read as the directives of one section after the other. -/
theorem readLines_separatedLines {groups : List (String × List Directive)} (name : String)
    (h : ∀ group ∈ groups, ∀ d ∈ group.2, d.sectionName = group.1 ∧ d.HasPlainName) :
    readLines name (separatedLines groups ++ [[]]) = groups.flatMap Prod.snd := by
  fun_induction separatedLines groups generalizing name with
  | case1 => rfl
  | case2 group =>
    rw [readLines_groupLines name (h group List.mem_cons_self)]
    simp [readLines]
  | case3 group groups hne ih =>
    obtain ⟨hgroup, hgroups⟩ := List.forall_mem_cons.1 h
    -- The section of `group` is still open at the blank line, and the next header closes it.
    rw [List.append_assoc, readLines_groupLines name hgroup, List.cons_append, readLines_blank,
      ih group.1 hgroups]
    rfl

/-- Grouping brings the directives into their stable order. -/
theorem flatMap_grouped (ds : List Directive) :
    (grouped ds).flatMap Prod.snd = stablyGrouped ds := by
  rw [grouped_eq, List.flatMap_map]
  rfl

/-- **The text of plain directives reads back.**  What is read are the directives, brought
    together by section. -/
theorem read_text {ds : List Directive} (h : ∀ d ∈ ds, d.IsPlain) :
    read (text ds) = stablyGrouped ds := by
  rw [read, toList_text, splitChars_joinLines (newline_notMem_separatedLines h),
    readLines_separatedLines, flatMap_grouped]
  intro group hgroup d hd
  rw [grouped_eq] at hgroup
  obtain ⟨name, -, rfl⟩ := List.mem_map.1 hgroup
  exact ⟨sectionName_of_mem_inSection hd, (h d (mem_of_mem_inSection hd)).toHasPlainName⟩

/-- No value that is read goes beyond its line. -/
theorem newline_notMem_value_of_mem_readLines {name : String} {lines : List (List Char)}
    (h : ∀ line ∈ lines, '\n' ∉ line) {d : Directive} (hd : d ∈ readLines name lines) :
    '\n' ∉ d.value.toList := by
  fun_induction readLines name lines with
  | case1 => cases hd
  | case2 name line lines hblank ih => exact ih (List.forall_mem_cons.1 h).2 hd
  | case3 name line lines hblank hhead ih => exact ih (List.forall_mem_cons.1 h).2 hd
  | case4 name line lines hblank hhead ih =>
    obtain ⟨hline, hlines⟩ := List.forall_mem_cons.1 h
    rcases List.mem_cons.1 hd with rfl | hd
    · rw [directiveOfLine, String.toList_ofList]
      exact fun hmem => hline (Text.mem_of_mem_cut_snd hmem)
    · exact ih hlines hd

/-- A reader finds no newline in a value. -/
theorem newline_notMem_value_of_mem_read {text : String} {d : Directive} (h : d ∈ read text) :
    '\n' ∉ d.value.toList :=
  newline_notMem_value_of_mem_readLines (fun _ => Text.notMem_of_mem_splitChars) h

/-- With plain names, directives read back exactly if no value breaks its line. -/
theorem read_text_eq_iff {ds : List Directive} (h : ∀ d ∈ ds, d.HasPlainName) :
    read (text ds) = stablyGrouped ds ↔ ∀ d ∈ ds, '\n' ∉ d.value.toList := by
  constructor
  · intro heq d hd
    -- Nothing is lost on the way, so `d` was read, and what is read stays on its line.
    have hmem : d ∈ read (text ds) := heq ▸ (stablyGrouped_perm ds).mem_iff.2 hd
    exact newline_notMem_value_of_mem_read hmem
  · intro hvalue
    exact read_text fun d hd => ⟨h d hd, hvalue d hd⟩

/-! ### The tuning services -/

/-- Whether names are plain does not depend on the values. -/
theorem hasPlainName_of_map_eq {ds es : List Directive}
    (hnames : ds.map (fun d => (d.sectionName, d.key)) = es.map fun d => (d.sectionName, d.key))
    (h : ∀ d ∈ es, d.HasPlainName) : ∀ d ∈ ds, d.HasPlainName := by
  intro d hd
  have hmem := List.mem_map_of_mem (f := fun d : Directive => (d.sectionName, d.key)) hd
  rw [hnames] at hmem
  obtain ⟨e, he, heq⟩ := List.mem_map.1 hmem
  obtain ⟨hsection, hkey⟩ := Prod.mk.inj heq
  obtain ⟨h1, h2, h3, h4⟩ := h e he
  exact ⟨hsection ▸ h1, hkey ▸ h2, hkey ▸ h3, hkey ▸ h4⟩

/-- The directives of the tuning service have plain names, whatever the CPUs. -/
theorem hasPlainName_preBootTuning (housekeeping : String) :
    ∀ d ∈ preBootTuning housekeeping, d.HasPlainName := by
  have hnames : (preBootTuning housekeeping).map (fun d => (d.sectionName, d.key)) =
      (preBootTuning "").map fun d => (d.sectionName, d.key) := rfl
  exact hasPlainName_of_map_eq hnames (by decide)

/-- The directives of the service that reboots the node are plain. -/
theorem isPlain_reboot : ∀ d ∈ reboot, d.IsPlain := by decide

/-- The directives of the tuning services stand by section already. -/
theorem stablyGrouped_preBootTuning (housekeeping : String) :
    stablyGrouped (preBootTuning housekeeping) = preBootTuning housekeeping := rfl

/-- The directives of the service that reboots the node are in order. -/
theorem stablyGrouped_reboot : stablyGrouped reboot = reboot := rfl

/-- Only the value of the variable depends on the CPUs. -/
theorem mem_preBootTuning {housekeeping : String} {d : Directive}
    (h : d ∈ preBootTuning housekeeping) :
    d = ⟨"Service", "Environment", environment "NON_ISOLATED_CPUS" housekeeping⟩ ∨
      d ∈ preBootTuning "" := by
  simp only [preBootTuning, runOnce, List.cons_append, List.nil_append, List.mem_cons,
    List.not_mem_nil, or_false] at h ⊢
  tauto

/-- The service that applies the tuning is plain exactly if the CPUs stay on their line. -/
theorem newline_notMem_value_preBootTuning_iff (housekeeping : String) :
    (∀ d ∈ preBootTuning housekeeping, '\n' ∉ d.value.toList) ↔ '\n' ∉ housekeeping.toList := by
  have hvalue : '\n' ∉ (environment "NON_ISOLATED_CPUS" housekeeping).toList ↔
      '\n' ∉ housekeeping.toList := by
    simp [environment]
  -- No other value has a line break, whatever the CPUs are.
  have hfixed : ∀ d ∈ preBootTuning "", d.IsPlain := by decide
  constructor
  · intro h
    refine hvalue.1 (h ⟨"Service", "Environment", environment "NON_ISOLATED_CPUS" housekeeping⟩ ?_)
    simp [preBootTuning]
  · intro h d hd
    rcases mem_preBootTuning hd with rfl | hd
    · exact hvalue.2 h
    · exact (hfixed d hd).value_line

/-- The tuning service reads back exactly if no newline stands among its CPUs. -/
theorem read_text_preBootTuning_iff (housekeeping : String) :
    read (text (preBootTuning housekeeping)) = preBootTuning housekeeping ↔
      '\n' ∉ housekeeping.toList := by
  have hiff := read_text_eq_iff (hasPlainName_preBootTuning housekeeping)
  rwa [stablyGrouped_preBootTuning, newline_notMem_value_preBootTuning_iff] at hiff

/-- The service that reboots the node reads back. -/
theorem read_text_reboot : read (text reboot) = reboot := by
  rw [read_text isPlain_reboot, stablyGrouped_reboot]

/-- Of the lines of the service that applies the tuning, one depends on the CPUs. -/
theorem exists_lines_preBootTuning : ∃ before after : List (List Char), ∀ housekeeping : String,
    separatedLines (grouped (preBootTuning housekeeping)) =
      before ++ directiveLine ⟨"Service", "Environment",
        environment "NON_ISOLATED_CPUS" housekeeping⟩ :: after :=
  ⟨(separatedLines (grouped (preBootTuning ""))).take 6,
    (separatedLines (grouped (preBootTuning ""))).drop 7, fun _ => rfl⟩

/-- Different CPUs give different texts, also those that break their line. -/
theorem text_preBootTuning_injective {housekeeping housekeeping' : String}
    (h : text (preBootTuning housekeeping) = text (preBootTuning housekeeping')) :
    housekeeping = housekeeping' := by
  obtain ⟨before, after, hlines⟩ := exists_lines_preBootTuning
  -- The lines in front are the same, and so are those behind, whatever the CPUs are.
  have hchars := congrArg String.toList h
  rw [toList_text, toList_text, hlines, hlines, joinLines_append, joinLines_append] at hchars
  have hline := List.append_cancel_left hchars
  exact String.toList_inj.1 (by simpa [joinLines, directiveLine, environment] using hline)

/-- Directives that were brought together have the text that they came from. -/
theorem text_stablyGrouped (ds : List Directive) : text (stablyGrouped ds) = text ds := by
  rw [text, fragments, grouped_stablyGrouped]
  rfl

/-- **Unit files read back.**  Plain directives are read from their text, brought together by
    section and each once, so that two lists have one text iff they are the same once brought
    together.  All names of the tuning services are plain; the one that applies the tuning reads
    back as its eight directives iff no line break stands among the CPUs. -/
theorem read_text_eq_stablyGrouped :
    (∀ ds : List Directive, (∀ d ∈ ds, d.IsPlain) →
      read (text ds) = stablyGrouped ds ∧ (stablyGrouped ds).Perm ds) ∧
    (∀ ds es : List Directive, (∀ d ∈ ds, d.IsPlain) → (∀ d ∈ es, d.IsPlain) →
      (text ds = text es ↔ stablyGrouped ds = stablyGrouped es)) ∧
    ∀ housekeeping : String,
      (∀ service ∈ tuning housekeeping, ∀ d ∈ service.2, d.HasPlainName) ∧
      (preBootTuning housekeeping).length = 8 ∧
      (read (text (preBootTuning housekeeping)) = preBootTuning housekeeping ↔
        '\n' ∉ housekeeping.toList) := by
  refine ⟨fun ds h => ⟨read_text h, stablyGrouped_perm ds⟩, fun ds es hds hes => ⟨?_, ?_⟩,
    fun housekeeping => ⟨?_, rfl, read_text_preBootTuning_iff housekeeping⟩⟩
  · intro h
    rw [← read_text hds, ← read_text hes, h]
  · intro h
    rw [← text_stablyGrouped ds, ← text_stablyGrouped es, h]
  · intro service hservice
    rcases List.mem_cons.1 hservice with rfl | hservice
    · exact hasPlainName_preBootTuning housekeeping
    · rw [List.mem_singleton.1 hservice]
      exact fun d hd => (isPlain_reboot d hd).toHasPlainName

/-- Two interleavings of a section with a value like a header and one with an empty value. -/
theorem read_text_interleaved :
    (∀ d ∈ [⟨"Service", "Type", "[Unit]"⟩, ⟨"Unit", "", ""⟩, ⟨"Service", "Type", "a=b"⟩],
      Directive.IsPlain d) ∧
    (∀ d ∈ [⟨"Service", "Type", "[Unit]"⟩, ⟨"Service", "Type", "a=b"⟩, ⟨"Unit", "", ""⟩],
      Directive.IsPlain d) ∧
    read (text [⟨"Service", "Type", "[Unit]"⟩, ⟨"Unit", "", ""⟩, ⟨"Service", "Type", "a=b"⟩]) =
      [⟨"Service", "Type", "[Unit]"⟩, ⟨"Service", "Type", "a=b"⟩, ⟨"Unit", "", ""⟩] ∧
    text [⟨"Service", "Type", "[Unit]"⟩, ⟨"Unit", "", ""⟩, ⟨"Service", "Type", "a=b"⟩] =
      text [⟨"Service", "Type", "[Unit]"⟩, ⟨"Service", "Type", "a=b"⟩, ⟨"Unit", "", ""⟩] :=
  ⟨by decide, by decide, (read_text_eq_stablyGrouped.1 _ (by decide)).1,
    (read_text_eq_stablyGrouped.2.1 _ _ (by decide) (by decide)).2 (by decide)⟩

end UnitFile

end MachineTuning
