import Mathlib.Data.List.Basic
import MachineTuning.Kernel
import MachineTuning.Text.Split

namespace MachineTuning.Kernel

/-!
# The kernel command line — what a reader finds in it

Behind the arguments of every node a command line holds what a profile sets.  `Kernel.read?` takes
each argument apart at its first equals sign and finds the settings again, so a command line says
no less than the settings that it is made of.

* `read?_arguments` — the settings are read from their command line;
* `arguments_eq_iff` — different settings have different command lines;
* `arguments_reversible` — so a command line says what was set, all of it and in order.
-/

/-- What a profile sets on the command line. -/
structure Settings where
  isolated : Option String
  defaultSize : Option String
  pages : List HugePage
  deriving DecidableEq

/-- The settings of some huge pages and isolated CPUs.  Without huge pages there is no default
    size and no page. -/
def settings (hugePages : Option HugePages) (isolated : Option String) : Settings :=
  ⟨isolated, hugePages.bind (·.defaultSize), (hugePages.map (·.pages)).getD []⟩

/-- The arguments for some settings. -/
def Settings.arguments (s : Settings) : List String :=
  (s.isolated.map ("isolcpus=" ++ ·)).toList ++
    ((s.defaultSize.map ("default_hugepagesz=" ++ ·)).toList ++ s.pages.flatMap pageArguments)

/-- A command line is made of the settings alone. -/
theorem arguments_eq (hugePages : Option HugePages) (isolated : Option String) :
    arguments hugePages isolated = baseArguments ++ (settings hugePages isolated).arguments := by
  cases hugePages with
  | none => simp [arguments, settings, Settings.arguments]
  | some pages => simp [arguments, settings, Settings.arguments, hugePageArguments]

/-! ### The reader -/

/-- An argument as its key, up to the first equals sign, and its value behind. -/
def keyAndValue (argument : String) : String × String :=
  (String.ofList (Text.cut '=' argument.toList).1, String.ofList (Text.cut '=' argument.toList).2)

/-- The integer that decimal digits spell, with a sign if it is negative. -/
def decimal (s : String) : Int :=
  match s.toList with
  | '-' :: digits => -(Nat.ofDigitChars 10 digits 0 : Nat)
  | digits => (Nat.ofDigitChars 10 digits 0 : Nat)

/-- The value of a setting, if it comes first, and what is left. -/
def takeSetting (key : String) :
    List (String × String) → Option String × List (String × String)
  | [] => (none, [])
  | entry :: entries =>
    if entry.1 = key then (some entry.2, entries) else (none, entry :: entries)

/-- Pairs of a size and a number of pages. -/
def readPages? : List (String × String) → Option (List HugePage)
  | [] => some []
  | [_] => none
  | size :: count :: entries =>
    if size.1 = "hugepagesz" ∧ count.1 = "hugepages" then
      (readPages? entries).map (⟨size.2, Int32.ofInt (decimal count.2)⟩ :: ·)
    else none

/-- The settings behind the arguments of every node. -/
def readSettings? (entries : List (String × String)) : Option Settings :=
  let (isolated, entries) := takeSetting "isolcpus" entries
  let (defaultSize, entries) := takeSetting "default_hugepagesz" entries
  (readPages? entries).map fun pages => ⟨isolated, defaultSize, pages⟩

/-- The settings that a command line spells. -/
def read? (arguments : List String) : Option Settings :=
  (baseArguments.isPrefixOf? arguments).bind fun rest => readSettings? (rest.map keyAndValue)

/-! ### Reading what was written -/

/-- A key without an equals sign ends at the first one. -/
theorem keyAndValue_append (key : String) (h : '=' ∉ key.toList) (value : String) :
    keyAndValue (key ++ "=" ++ value) = (key, value) := by
  have hlist : (key ++ "=" ++ value).toList = key.toList ++ '=' :: value.toList := by
    simp
  rw [keyAndValue, hlist, Text.cut_append_cons h, String.ofList_toList, String.ofList_toList]

/-- An integer is read from its digits. -/
theorem decimal_toString (n : Int) : decimal (toString n) = n := by
  cases n with
  | ofNat n =>
    have hlist : (toString (Int.ofNat n)).toList = Nat.toDigits 10 n := Nat.toList_repr
    unfold decimal
    rw [hlist]
    split
    · next digits heq =>
      -- A natural number is written without a sign: its first character is a digit.
      have hdigit : '-'.isDigit := Nat.isDigit_of_mem_toDigits (b := 10) (n := n) (by decide)
        (by decide) (heq ▸ List.mem_cons_self)
      exact absurd hdigit (by decide)
    · rw [Nat.ofDigitChars_ten_toDigits, Int.ofNat_eq_natCast]
  | negSucc n =>
    have hlist : (toString (Int.negSucc n)).toList = '-' :: Nat.toDigits 10 (n + 1) := by
      show ("-" ++ (n + 1).repr).toList = _
      rw [String.toList_append, Nat.toList_repr]
      rfl
    unfold decimal
    rw [hlist]
    show -((Nat.ofDigitChars 10 (Nat.toDigits 10 (n + 1)) 0 : Nat) : Int) = _
    rw [Nat.ofDigitChars_ten_toDigits, Int.negSucc_eq]
    rfl

/-- The keys and values of the arguments for pages. -/
def pageEntries (page : HugePage) : List (String × String) :=
  [("hugepagesz", page.size), ("hugepages", toString page.count.toInt)]

/-- The arguments for pages are taken apart into a size and a number. -/
theorem keyAndValue_pageArguments (page : HugePage) :
    (pageArguments page).map keyAndValue = pageEntries page := by
  have hsize := keyAndValue_append "hugepagesz" (by decide) page.size
  have hcount := keyAndValue_append "hugepages" (by decide) (toString page.count.toInt)
  exact congrArg₂ (fun a b => [a, b]) hsize hcount

/-- Pages are set under two keys. -/
theorem key_of_mem_pageEntries {pages : List HugePage} {entry : String × String}
    (h : entry ∈ pages.flatMap pageEntries) : entry.1 = "hugepagesz" ∨ entry.1 = "hugepages" := by
  obtain ⟨page, -, hentry⟩ := List.mem_flatMap.1 h
  rw [pageEntries, List.mem_cons, List.mem_singleton] at hentry
  rcases hentry with rfl | rfl
  · exact .inl rfl
  · exact .inr rfl

/-- Pages are read from their keys and values, in order. -/
theorem readPages?_pageEntries (pages : List HugePage) :
    readPages? (pages.flatMap pageEntries) = some pages := by
  induction pages with
  | nil => rfl
  | cons page pages ih =>
    -- The number of pages is a 32-bit integer again, though the reader knows only integers.
    have hcount : Int32.ofInt (decimal (toString page.count.toInt)) = page.count := by
      rw [decimal_toString, Int32.ofInt_toInt]
    rw [List.flatMap_cons, pageEntries, List.cons_append, List.singleton_append, readPages?,
      if_pos ⟨rfl, rfl⟩, ih, hcount]
    rfl

/-- A setting that may be missing is taken if nothing else stands under its key. -/
theorem takeSetting_append {key : String} {entries : List (String × String)}
    (h : ∀ entry ∈ entries, entry.1 ≠ key) (value : Option String) :
    takeSetting key (value.toList.map (fun v => (key, v)) ++ entries) = (value, entries) := by
  cases value with
  | some v => simp [takeSetting]
  | none =>
    cases entries with
    | nil => rfl
    | cons entry entries =>
      show takeSetting key (entry :: entries) = _
      rw [takeSetting, if_neg (h entry List.mem_cons_self)]

/-- The keys and values of the arguments for some settings. -/
def Settings.entries (s : Settings) : List (String × String) :=
  s.isolated.toList.map (fun v => ("isolcpus", v)) ++
    (s.defaultSize.toList.map (fun v => ("default_hugepagesz", v)) ++ s.pages.flatMap pageEntries)

/-- The arguments for some settings are taken apart into keys and values. -/
theorem keyAndValue_arguments (s : Settings) : s.arguments.map keyAndValue = s.entries := by
  -- The two single settings differ in their key alone.
  have hvalue (key : String) (hkey : '=' ∉ key.toList) (value : Option String) :
      (value.map (key ++ "=" ++ ·)).toList.map keyAndValue =
        value.toList.map fun v => (key, v) := by
    cases value with
    | none => rfl
    | some v => exact congrArg (fun e => [e]) (keyAndValue_append key hkey v)
  have hpages : (s.pages.flatMap pageArguments).map keyAndValue = s.pages.flatMap pageEntries := by
    rw [List.map_flatMap]
    exact congrArg (s.pages.flatMap ·) (funext keyAndValue_pageArguments)
  rw [Settings.arguments, List.map_append, List.map_append, hpages]
  exact congrArg₂ (fun a b => a ++ (b ++ _)) (hvalue "isolcpus" (by decide) s.isolated)
    (hvalue "default_hugepagesz" (by decide) s.defaultSize)

/-- Settings are read from their keys and values. -/
theorem readSettings?_entries (s : Settings) : readSettings? s.entries = some s := by
  obtain ⟨isolated, defaultSize, pages⟩ := s
  -- Each setting is taken from the front, so it must not be mistaken for one that follows.
  have hpages : ∀ entry ∈ pages.flatMap pageEntries, entry.1 ≠ "default_hugepagesz" := by
    intro entry hentry
    rcases key_of_mem_pageEntries hentry with h | h <;> rw [h] <;> decide
  have hothers : ∀ entry ∈ defaultSize.toList.map (fun v => ("default_hugepagesz", v)) ++
      pages.flatMap pageEntries, entry.1 ≠ "isolcpus" := by
    intro entry hentry
    rcases List.mem_append.1 hentry with hentry | hentry
    · obtain ⟨size, -, rfl⟩ := List.mem_map.1 hentry
      exact (by decide : "default_hugepagesz" ≠ "isolcpus")
    · rcases key_of_mem_pageEntries hentry with h | h <;> rw [h] <;> decide
  rw [readSettings?, Settings.entries, takeSetting_append hothers]
  simp only [takeSetting_append hpages, readPages?_pageEntries]
  rfl

/-- **Command lines read back** as the settings that they are made of. -/
theorem read?_arguments (hugePages : Option HugePages) (isolated : Option String) :
    read? (arguments hugePages isolated) = some (settings hugePages isolated) := by
  have hrest (tail : List String) : baseArguments.isPrefixOf? (baseArguments ++ tail) = some tail :=
    List.isPrefixOf?_eq_some_iff_append_eq.2 rfl
  rw [read?, arguments_eq, hrest, Option.bind_some, keyAndValue_arguments, readSettings?_entries]

/-- Different settings have different command lines. -/
theorem arguments_eq_iff {hugePages hugePages' : Option HugePages}
    {isolated isolated' : Option String} :
    arguments hugePages isolated = arguments hugePages' isolated' ↔
      settings hugePages isolated = settings hugePages' isolated' := by
  constructor
  · intro h
    have hread := read?_arguments hugePages isolated
    rw [h, read?_arguments] at hread
    exact (Option.some.inj hread).symm
  · intro h
    rw [arguments_eq, arguments_eq, h]

/-! ### What a command line says -/

/-- Without huge pages the same is set as with none of them. -/
theorem settings_eq (hugePages : Option HugePages) (isolated : Option String) :
    settings hugePages isolated =
      ⟨isolated, (hugePages.getD {}).defaultSize, (hugePages.getD {}).pages⟩ := by
  cases hugePages <;> rfl

/-- A setting takes up one argument, and a kind of pages two. -/
theorem Settings.length_arguments (s : Settings) : s.arguments.length =
    s.isolated.toList.length + s.defaultSize.toList.length + 2 * s.pages.length := by
  have hpages (pages : List HugePage) :
      (pages.flatMap pageArguments).length = 2 * pages.length := by
    induction pages with
    | nil => rfl
    | cons page pages ih =>
      rw [List.flatMap_cons, List.length_append, ih, List.length_cons]
      show 2 + 2 * pages.length = _
      omega
  have hvalue (key : String) (value : Option String) :
      (value.map (key ++ ·)).toList.length = value.toList.length := by
    cases value <;> rfl
  rw [Settings.arguments, List.length_append, List.length_append, hpages, hvalue, hvalue]
  omega

/-- **A command line is complete, ordered and reversible.**  Behind the arguments of every node
    stand the isolated CPUs, if they are set, the default size, if it is set, and a size and a
    number for each kind of pages in turn.  Taken apart at their first equals signs, these arguments
    give back what was set.  So their number is known, and two command lines are the same exactly if
    the same was set. -/
theorem arguments_reversible (hugePages : Option HugePages) (isolated : Option String) :
    let wanted := hugePages.getD {}
    (∃ rest, arguments hugePages isolated = baseArguments ++ rest ∧
      rest.map keyAndValue = isolated.toList.map (fun v => ("isolcpus", v)) ++
        (wanted.defaultSize.toList.map (fun v => ("default_hugepagesz", v)) ++
          wanted.pages.flatMap fun page =>
            [("hugepagesz", page.size), ("hugepages", toString page.count.toInt)]) ∧
      readSettings? (rest.map keyAndValue) = some ⟨isolated, wanted.defaultSize, wanted.pages⟩) ∧
    (arguments hugePages isolated).length = baseArguments.length + isolated.toList.length +
      wanted.defaultSize.toList.length + 2 * wanted.pages.length ∧
    ∀ hugePages' isolated', arguments hugePages isolated = arguments hugePages' isolated' ↔
      isolated = isolated' ∧ wanted = hugePages'.getD {} := by
  intro wanted
  have hsettings : settings hugePages isolated = ⟨isolated, wanted.defaultSize, wanted.pages⟩ :=
    settings_eq hugePages isolated
  refine ⟨⟨_, arguments_eq hugePages isolated, ?entries, ?read⟩, ?length,
    fun hugePages' isolated' => ?eq⟩
  case entries => rw [keyAndValue_arguments, hsettings]; rfl
  case read => rw [keyAndValue_arguments, readSettings?_entries, hsettings]
  case length =>
    rw [arguments_eq, List.length_append, Settings.length_arguments, hsettings]
    simp only [Nat.add_assoc]
  case eq =>
    -- Nothing is set for no huge pages and for huge pages that ask for nothing alike, so that only
    -- what is wanted can be told apart.
    have hwanted {a b : HugePages} : a.defaultSize = b.defaultSize ∧ a.pages = b.pages ↔ a = b := by
      cases a
      cases b
      rw [HugePages.mk.injEq]
    rw [arguments_eq_iff, hsettings, settings_eq, Settings.mk.injEq, hwanted]

end MachineTuning.Kernel
