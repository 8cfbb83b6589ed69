import MachineTuning.Proofs.UnitFile.Grouping
import MachineTuning.Proofs.UnitFile.Stream

namespace MachineTuning.UnitFile

/-!
# Unit files — the text section by section

The text of a unit file is written in pieces, from groups that were built directive by directive.
This file says what the text is, without the pieces and the building.

* `entry`, `block` — the line of a directive, and a section with its header;
* `text_eq` — the text is the blocks of the sections in the order in which these first occur, with
  one newline between two of them;
* `text_eq_unlines` — line by line, a section is its header and its directives, and an empty line
  stands between two of them;
* `render_eq_ok_blocks` — that text is rendered for every list of directives, and it does not show
  how sections were interleaved.
-/

/-- The line of a directive, with its end. -/
def entry (d : Directive) : String :=
  d.key ++ "=" ++ d.value ++ "\n"

/-- A section: its header and the lines of its directives. -/
def block (name : String) (ds : List Directive) : String :=
  "[" ++ name ++ "]\n" ++ String.join (ds.map entry)

/-! ### From pieces to blocks -/

/-- The pieces of a directive make up its line. -/
theorem join_lineFragments (d : Directive) : String.join (lineFragments d) = entry d := by
  rw [lineFragments, entry]
  simp [String.append_assoc]

/-- The pieces of some directives make up their lines. -/
theorem join_flatMap_lineFragments (ds : List Directive) :
    String.join (ds.flatMap lineFragments) = String.join (ds.map entry) := by
  induction ds with
  | nil => rfl
  | cons d ds ih =>
    rw [List.flatMap_cons, String.join_append, join_lineFragments, ih, List.map_cons,
      String.join_cons]

/-- The pieces of a group make up its section. -/
theorem join_groupFragments (group : String × List Directive) :
    String.join (groupFragments group) = block group.1 group.2 := by
  rw [groupFragments, String.join_append, join_flatMap_lineFragments, block]
  simp [String.append_assoc]

/-- One newline stands between two sections, none in front of the first or behind the last. -/
theorem join_separated (groups : List (String × List Directive)) :
    String.join (separated groups) = "\n".intercalate (groups.map fun g => block g.1 g.2) := by
  induction groups with
  | nil => rfl
  | cons group groups ih =>
    cases groups with
    | nil =>
      show String.join (groupFragments group) = _
      rw [join_groupFragments, List.map_singleton, String.intercalate_singleton]
    | cons next groups =>
      show String.join (groupFragments group ++ "\n" :: separated (next :: groups)) = _
      rw [String.join_append, String.join_cons, join_groupFragments, ih]
      simp only [List.map_cons, String.intercalate_cons_cons, String.append_assoc]

/-- **The text of a unit file** is its sections in the order in which they first occur, each with
    its directives in the order given. -/
theorem text_eq (ds : List Directive) : text ds =
    "\n".intercalate ((sectionNames ds).map fun name => block name (inSection name ds)) := by
  rw [text, fragments, join_separated, grouped_eq, List.map_map]
  rfl

/-! ### Line by line -/

/-- Lines as a text, each with its end. -/
def unlines (lines : List String) : String :=
  String.join (lines.map (· ++ "\n"))

/-- The lines of two texts in a row. -/
theorem unlines_append (lines rest : List String) :
    unlines (lines ++ rest) = unlines lines ++ unlines rest := by
  rw [unlines, List.map_append, String.join_append]
  rfl

/-- A newline between two texts is an empty line between their lines. -/
theorem intercalate_map_unlines (texts : List (List String)) :
    "\n".intercalate (texts.map unlines) = unlines ([""].intercalate texts) := by
  induction texts with
  | nil => rfl
  | cons text texts ih =>
    cases texts with
    | nil => rw [List.map_singleton, String.intercalate_singleton, List.intercalate_singleton]
    | cons next texts =>
      have hempty : unlines [""] = "\n" := by simp [unlines]
      rw [List.map_cons] at ih ⊢
      rw [List.map_cons, String.intercalate_cons_cons, ih, List.intercalate_cons_cons,
        unlines_append, unlines_append, hempty]

/-- The lines of a unit file. -/
def lines (ds : List Directive) : List String :=
  [""].intercalate ((sectionNames ds).map fun name =>
    ("[" ++ name ++ "]") :: (inSection name ds).map fun d => d.key ++ "=" ++ d.value)

/-- **The lines of a unit file** make up its text. -/
theorem text_eq_unlines (ds : List Directive) : text ds = unlines (lines ds) := by
  rw [text_eq, lines, ← intercalate_map_unlines, List.map_map]
  refine congrArg _ (List.map_congr_left fun name _ => ?_)
  have hheader : "[" ++ name ++ "]" ++ "\n" = "[" ++ name ++ "]\n" := by
    rw [String.append_assoc]
    rfl
  show block name (inSection name ds) = unlines _
  rw [block, unlines, List.map_cons, String.join_cons, List.map_map, hheader]
  rfl

/-! ### What is rendered -/

/-- **A unit file is rendered section by section.**  Rendering never fails.  It gives the sections
    in the order in which they first occur, one newline between two of them and nothing without
    directives.  Every directive has one line in its section, and lists that differ only in how
    their sections are interleaved are rendered alike. -/
theorem render_eq_ok_blocks :
    (∀ ds : List Directive, render ds = .ok ("\n".intercalate
      ((sectionNames ds).map fun name => block name (inSection name ds)))) ∧
    render [] = .ok "" ∧
    (∀ ds : List Directive, ((sectionNames ds).flatMap fun name => inSection name ds).Perm ds) ∧
    ∀ ds es : List Directive, sectionNames ds = sectionNames es →
      (∀ name ∈ sectionNames ds, inSection name ds = inSection name es) →
      render ds = render es := by
  refine ⟨fun ds => ?_, ?_, stablyGrouped_perm, fun ds es hnames hsections => ?_⟩
  · rw [render_eq_ok, text_eq]
  · rw [render_eq_ok]
    rfl
  · -- The text depends on the names of the sections and on what each one holds, and on nothing
    -- else.
    have hblocks : (sectionNames ds).map (fun name => block name (inSection name ds)) =
        (sectionNames ds).map fun name => block name (inSection name es) :=
      List.map_congr_left fun name hname => by rw [hsections name hname]
    rw [render_eq_ok, render_eq_ok, text_eq, text_eq, hblocks, hnames]

/-- Two interleavings of a section without a name and one with a value like a blank line. -/
theorem render_interleaved :
    let ds : List Directive := [⟨"", "a", ""⟩, ⟨"Unit", "b", "\n\n"⟩, ⟨"", "a", "="⟩]
    let es : List Directive := [⟨"", "a", ""⟩, ⟨"", "a", "="⟩, ⟨"Unit", "b", "\n\n"⟩]
    sectionNames ds = sectionNames es ∧
      (∀ name ∈ sectionNames ds, inSection name ds = inSection name es) ∧
        render ds = render es := by
  intro ds es
  have hnames : sectionNames ds = sectionNames es := by decide
  have hsections : ∀ name ∈ sectionNames ds, inSection name ds = inSection name es := by decide
  exact ⟨hnames, hsections, render_eq_ok_blocks.2.2.2 ds es hnames hsections⟩

end MachineTuning.UnitFile
