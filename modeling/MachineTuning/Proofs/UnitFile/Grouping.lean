import MachineTuning.UnitFile
import Mathlib.Data.List.Induction

namespace MachineTuning.UnitFile

/-!
# Unit files — directives brought together by section

The groups of a unit file are built by putting each directive behind the others of its section.
This file says what comes out of that, without the building:

* `sectionNames` — the sections in the order in which they first occur;
* `inSection` — the directives of one section in the order given;
* `grouped_eq` — the groups are the sections with their directives;
* `stablyGrouped_perm`, `grouped_stablyGrouped` — nothing is lost or doubled on the way, and
  directives that are already together stay as they are.
-/

/-- The sections of directives in the order in which they first occur. -/
def sectionNames (ds : List Directive) : List String :=
  (ds.map Directive.sectionName).eraseDups

/-- The directives of one section in the order given. -/
def inSection (name : String) (ds : List Directive) : List Directive :=
  ds.filter (·.sectionName = name)

/-- The directives brought together by section: sections in the order in which they first occur,
    the directives of one section in the order given. -/
def stablyGrouped (ds : List Directive) : List Directive :=
  (sectionNames ds).flatMap fun name => inSection name ds

/-! ### One directive more -/

/-- The sections of a unit file are those of its directives. -/
theorem mem_sectionNames {name : String} {ds : List Directive} :
    name ∈ sectionNames ds ↔ ∃ d ∈ ds, d.sectionName = name := by
  rw [sectionNames, List.mem_eraseDups, List.mem_map]

/-- A directive adds its section at the end, unless the section has occurred before. -/
theorem sectionNames_append_singleton (ds : List Directive) (d : Directive) :
    sectionNames (ds ++ [d]) =
      if d.sectionName ∈ sectionNames ds then sectionNames ds
      else sectionNames ds ++ [d.sectionName] := by
  unfold sectionNames
  rw [List.map_append, List.map_singleton, List.eraseDups_append]
  generalize ds.map Directive.sectionName = names
  by_cases h : d.sectionName ∈ names
  · rw [if_pos (List.mem_eraseDups.2 h)]
    simp [List.removeAll, h]
  · rw [if_neg (mt List.mem_eraseDups.1 h)]
    simp [List.removeAll, h, List.eraseDups_cons]

/-- Every section is listed once. -/
theorem nodup_sectionNames (ds : List Directive) : (sectionNames ds).Nodup := by
  induction ds using List.reverseRecOn with
  | nil => exact List.nodup_nil
  | append_singleton ds d ih =>
    rw [sectionNames_append_singleton]
    by_cases h : d.sectionName ∈ sectionNames ds
    · rw [if_pos h]
      exact ih
    · rw [if_neg h]
      refine List.nodup_append.2 ⟨ih, by simp, fun name hname other hother => ?_⟩
      rintro rfl
      exact h (List.mem_singleton.1 hother ▸ hname)

/-- The directives of a section in two lists in a row. -/
theorem inSection_append (name : String) (ds es : List Directive) :
    inSection name (ds ++ es) = inSection name ds ++ inSection name es :=
  List.filter_append ..

/-- A section that does not occur has no directives. -/
theorem inSection_eq_nil {name : String} {ds : List Directive} (h : name ∉ sectionNames ds) :
    inSection name ds = [] := by
  rw [inSection, List.filter_eq_nil_iff]
  intro d hd hname
  exact h (mem_sectionNames.2 ⟨d, hd, by simpa using hname⟩)

/-! ### The groups -/

/-- A directive of a new section comes behind all groups. -/
theorem addToGroup_of_notMem {d : Directive} {groups : List (String × List Directive)}
    (h : ∀ group ∈ groups, group.1 ≠ d.sectionName) :
    addToGroup d groups = groups ++ [(d.sectionName, [d])] := by
  induction groups with
  | nil => rfl
  | cons group groups ih =>
    obtain ⟨hhead, htail⟩ := List.forall_mem_cons.1 h
    rw [addToGroup, if_neg hhead, ih htail]
    rfl

/-- A directive of a section that is there goes behind the others of this section. -/
theorem addToGroup_of_mem {d : Directive} {names : List String} (f : String → List Directive)
    (hnodup : names.Nodup) (h : d.sectionName ∈ names) :
    addToGroup d (names.map fun name => (name, f name)) =
      names.map fun name => (name, if name = d.sectionName then f name ++ [d] else f name) := by
  induction names with
  | nil => cases h
  | cons name names ih =>
    obtain ⟨hname, hnodup⟩ := List.nodup_cons.1 hnodup
    rw [List.map_cons, List.map_cons, addToGroup]
    -- `names` has no duplicates, so the section is found here or behind, but not twice.
    by_cases heq : name = d.sectionName
    · rw [if_pos heq, if_pos heq]
      congr 1
      refine List.map_congr_left fun other hother => ?_
      rw [if_neg]
      rintro rfl
      exact hname (heq ▸ hother)
    · have hmem : d.sectionName ∈ names := (List.mem_cons.1 h).resolve_left fun h => heq h.symm
      rw [if_neg heq, if_neg heq, ih hnodup hmem]

/-- **The groups are the sections with their directives.** -/
theorem grouped_eq (ds : List Directive) :
    grouped ds = (sectionNames ds).map fun name => (name, inSection name ds) := by
  induction ds using List.reverseRecOn with
  | nil => rfl
  | append_singleton ds d ih =>
    -- Groups are built from the front, so the last directive is the one to be added.
    have hstep : grouped (ds ++ [d]) = addToGroup d (grouped ds) := by
      rw [grouped, List.foldl_append]
      rfl
    rw [hstep, ih, sectionNames_append_singleton]
    by_cases h : d.sectionName ∈ sectionNames ds
    · rw [if_pos h, addToGroup_of_mem _ (nodup_sectionNames ds) h]
      refine List.map_congr_left fun name _ => ?_
      rw [inSection_append]
      by_cases heq : name = d.sectionName
      · simp [inSection, heq]
      · simp [inSection, heq, Ne.symm heq]
    · rw [if_neg h, addToGroup_of_notMem, List.map_append]
      · congr 1
        · refine List.map_congr_left fun name hname => ?_
          have hne : ¬ d.sectionName = name := fun heq => h (heq ▸ hname)
          rw [inSection_append]
          simp [inSection, hne]
        · rw [List.map_singleton, inSection_append, inSection_eq_nil h]
          simp [inSection]
      · intro group hgroup heq
        obtain ⟨name, hname, rfl⟩ := List.mem_map.1 hgroup
        exact h (heq ▸ hname)

/-! ### Directives that are together already -/

/-- The directives of a section among blocks of one section each. -/
theorem inSection_flatMap {names : List String} {f : String → List Directive} {name : String}
    (hnodup : names.Nodup) (hf : ∀ n, ∀ d ∈ f n, d.sectionName = n) (h : name ∈ names) :
    inSection name (names.flatMap f) = f name := by
  induction names with
  | nil => cases h
  | cons n names ih =>
    obtain ⟨hn, hnodup⟩ := List.nodup_cons.1 hnodup
    rw [List.flatMap_cons, inSection_append]
    -- A block is in the section as a whole or not at all.
    have hblock {m : String} (hm : m ≠ name) : inSection name (f m) = [] := by
      rw [inSection, List.filter_eq_nil_iff]
      intro d hd
      simpa [hf m d hd] using hm
    have hself : inSection name (f name) = f name := by
      rw [inSection, List.filter_eq_self]
      intro d hd
      simpa using hf name d hd
    by_cases heq : n = name
    · subst heq
      have hrest : inSection n (names.flatMap f) = [] := by
        rw [inSection, List.filter_flatMap]
        rw [List.flatMap_eq_nil_iff]
        intro m hm
        exact hblock fun h => hn (h ▸ hm)
      rw [hself, hrest, List.append_nil]
    · rw [hblock heq, ih hnodup ((List.mem_cons.1 h).resolve_left fun h => heq h.symm)]
      rfl

/-- The sections of blocks of one section each. -/
theorem sectionNames_flatMap {names : List String} {f : String → List Directive}
    (hnodup : names.Nodup) (hf : ∀ n, ∀ d ∈ f n, d.sectionName = n) (hne : ∀ n ∈ names, f n ≠ []) :
    sectionNames (names.flatMap f) = names := by
  induction names with
  | nil => rfl
  | cons n names ih =>
    obtain ⟨hn, hnodup⟩ := List.nodup_cons.1 hnodup
    obtain ⟨hhead, htail⟩ := List.forall_mem_cons.1 hne
    have hblock : ∀ name ∈ (f n).map Directive.sectionName, name = n := by
      intro name hname
      obtain ⟨d, hd, rfl⟩ := List.mem_map.1 hname
      exact hf n d hd
    -- A block adds its own section, and the later blocks have other ones.
    have hone : ((f n).map Directive.sectionName).eraseDups = [n] := by
      obtain ⟨d, ds, hds⟩ := List.exists_cons_of_ne_nil hhead
      rw [hds, List.map_cons] at hblock ⊢
      obtain ⟨rfl, hrest⟩ := List.forall_mem_cons.1 hblock
      rw [List.eraseDups_cons,
        List.filter_eq_nil_iff.2 fun name hname => by simp [hrest name hname]]
      rfl
    have hrest : ((names.flatMap f).map Directive.sectionName).removeAll
        ((f n).map Directive.sectionName) = (names.flatMap f).map Directive.sectionName := by
      rw [List.removeAll, List.filter_eq_self]
      intro name hname
      obtain ⟨d, hd, rfl⟩ := List.mem_map.1 hname
      obtain ⟨m, hm, hd⟩ := List.mem_flatMap.1 hd
      have hd' : d.sectionName ∉ (f n).map Directive.sectionName := fun h =>
        hn (hblock _ h ▸ hf m d hd ▸ hm)
      simpa using hd'
    have ih' : ((names.flatMap f).map Directive.sectionName).eraseDups = names := ih hnodup htail
    rw [sectionNames, List.flatMap_cons, List.map_append, List.eraseDups_append, hone, hrest, ih']
    rfl

/-- A directive of a section belongs to that section. -/
theorem sectionName_of_mem_inSection {name : String} {ds : List Directive} {d : Directive}
    (h : d ∈ inSection name ds) : d.sectionName = name := by
  simpa using (List.mem_filter.1 h).2

/-- A directive of a section is among the directives. -/
theorem mem_of_mem_inSection {name : String} {ds : List Directive} {d : Directive}
    (h : d ∈ inSection name ds) : d ∈ ds :=
  (List.mem_filter.1 h).1

/-- Bringing directives together leaves those of one section as they are. -/
theorem inSection_stablyGrouped (name : String) (ds : List Directive) :
    inSection name (stablyGrouped ds) = inSection name ds := by
  by_cases h : name ∈ sectionNames ds
  · exact inSection_flatMap (nodup_sectionNames ds) (fun _ _ => sectionName_of_mem_inSection) h
  · rw [inSection_eq_nil h]
    apply inSection_eq_nil
    intro hname
    obtain ⟨d, hd, rfl⟩ := mem_sectionNames.1 hname
    obtain ⟨n, hn, hd⟩ := List.mem_flatMap.1 hd
    exact h (sectionName_of_mem_inSection hd ▸ hn)

/-- Directives that were brought together form the groups that they came from. -/
theorem grouped_stablyGrouped (ds : List Directive) : grouped (stablyGrouped ds) = grouped ds := by
  have hne : ∀ n ∈ sectionNames ds, inSection n ds ≠ [] := by
    intro n hn
    obtain ⟨d, hd, hname⟩ := mem_sectionNames.1 hn
    exact List.ne_nil_of_mem (List.mem_filter.2 ⟨hd, by simpa using hname⟩)
  have hnames : sectionNames (stablyGrouped ds) = sectionNames ds :=
    sectionNames_flatMap (nodup_sectionNames ds) (fun _ _ => sectionName_of_mem_inSection) hne
  rw [grouped_eq, grouped_eq, hnames]
  exact List.map_congr_left fun name _ => by rw [inSection_stablyGrouped]

/-- Bringing directives together neither loses nor doubles one. -/
theorem stablyGrouped_perm (ds : List Directive) : (stablyGrouped ds).Perm ds := by
  -- A directive occurs only in its own section, so it is enough to count it there.
  have hcount (d : Directive) (es : List Directive) :
      (inSection d.sectionName es).count d = es.count d :=
    List.count_filter (by simp)
  rw [List.perm_iff_count]
  intro d
  rw [← hcount d (stablyGrouped ds), inSection_stablyGrouped, hcount]

end MachineTuning.UnitFile
