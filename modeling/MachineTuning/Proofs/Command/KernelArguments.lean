import MachineTuning.Proofs.Command.Result
import MachineTuning.Proofs.Kernel.Reader

namespace MachineTuning

/-!
# Printed command lines — what is computed is what is read

A consumer drops the final newline of the kernel arguments and takes them apart where one ends,
that is at newlines, or on one line at blanks.  All that a profile adds to them is a value behind a
key that is known, so what is read is what was computed as long as no value holds such a character.

* `Kernel.forall_notMem_arguments_iff` — a character that no key holds comes from a value;
* `Command.join_kernelArgumentsPieces` — both texts join the arguments;
* `Command.kernelArguments_carried` — so they carry the arguments exactly if the values allow it.
-/

/-! ### Where a character comes from -/

namespace Kernel

variable {c : Char}

/-- Every profile has kernel arguments, those of every node. -/
theorem argumentsFor_ne_nil (p : Profile) : argumentsFor p ≠ [] := by
  rw [argumentsFor, arguments_eq]
  exact List.append_ne_nil_of_left_ne_nil (by decide) _

/-- The texts that some settings copy to the command line. -/
def Settings.values (s : Settings) : List String :=
  s.isolated.toList ++ (s.defaultSize.toList ++ s.pages.map (·.size))

/-- The texts that a profile copies to the command line. -/
def valuesFor (p : Profile) : List String :=
  (settings p.spec.hugePages p.spec.cpus.isolated).values

/-- A character that no command line holds but in a value. -/
def IsForeign (c : Char) : Prop :=
  (∀ argument ∈ baseArguments, c ∉ argument.toList) ∧
    (∀ key ∈ ["isolcpus=", "default_hugepagesz=", "hugepagesz=", "hugepages="], c ∉ key.toList) ∧
    c.isDigit = false ∧ c ≠ '-'

/-- Whether a character is foreign to all that is fixed can be computed. -/
instance : Decidable (IsForeign c) :=
  inferInstanceAs (Decidable (_ ∧ _ ∧ _ ∧ _))

/-- The digits of an integer hold nothing but digits and a sign. -/
theorem notMem_toString (hdigit : c.isDigit = false) (hsign : c ≠ '-') (n : Int) :
    c ∉ (toString n).toList := by
  have hdigits (m : Nat) : c ∉ Nat.toDigits 10 m := fun h => by
    rw [Nat.isDigit_of_mem_toDigits (by decide) (by decide) h] at hdigit
    cases hdigit
  cases n with
  | ofNat n =>
    show c ∉ n.repr.toList
    rw [Nat.toList_repr]
    exact hdigits n
  | negSucc n =>
    show c ∉ ("-" ++ (n + 1).repr).toList
    rw [String.toList_append, Nat.toList_repr]
    exact List.not_mem_append (by simpa using hsign) (hdigits (n + 1))

/-- **A character that no key holds** is in a command line exactly if it is in a value. -/
theorem forall_notMem_arguments_iff (hc : IsForeign c) (hugePages : Option HugePages)
    (isolated : Option String) :
    (∀ argument ∈ arguments hugePages isolated, c ∉ argument.toList) ↔
      ∀ value ∈ (settings hugePages isolated).values, c ∉ value.toList := by
  obtain ⟨hbase, hkeys, hdigit, hsign⟩ := hc
  have hkey {key : String} (h : c ∉ key.toList) (value : String) :
      c ∉ (key ++ value).toList ↔ c ∉ value.toList := by
    simp [h]
  have hvalue {key : String} (h : c ∉ key.toList) (value : Option String) :
      (∀ argument ∈ (value.map (key ++ ·)).toList, c ∉ argument.toList) ↔
        ∀ v ∈ value.toList, c ∉ v.toList := by
    cases value with
    | none => exact Iff.rfl
    | some v => simp [h]
  -- The number of pages is written in digits, so of a page only the size counts.
  have hpage (page : HugePage) :
      (∀ argument ∈ pageArguments page, c ∉ argument.toList) ↔ c ∉ page.size.toList := by
    rw [pageArguments, List.forall_mem_cons, List.forall_mem_singleton,
      hkey (hkeys "hugepagesz=" (by decide)), hkey (hkeys "hugepages=" (by decide))]
    exact and_iff_left (notMem_toString hdigit hsign _)
  rw [arguments_eq, List.forall_mem_append, and_iff_right hbase, Settings.arguments,
    Settings.values, List.forall_mem_append, List.forall_mem_append, List.forall_mem_append,
    List.forall_mem_append, hvalue (hkeys "isolcpus=" (by decide)),
    hvalue (hkeys "default_hugepagesz=" (by decide)), List.forall_mem_flatMap,
    List.forall_mem_map]
  simp only [hpage]

end Kernel

/-! ### Both texts -/

namespace Command

variable {fs : FileSystem} {p : Profile} {profile : String}

/-- Where an argument ends in a text. -/
def separator : Bool → Char
  | true => ' '
  | false => '\n'

/-- Neither separator occurs in what is fixed. -/
theorem isForeign_separator (oneLine : Bool) : Kernel.IsForeign (separator oneLine) := by
  cases oneLine <;> decide

/-- **The pieces of some arguments** make up the arguments, joined, and a newline. -/
theorem join_kernelArgumentsPieces (oneLine : Bool) {arguments : List String}
    (h : arguments ≠ []) : String.join (kernelArgumentsPieces oneLine arguments) =
      (String.singleton (separator oneLine)).intercalate arguments ++ "\n" := by
  cases oneLine with
  | true => simp [kernelArgumentsPieces, separator]
  | false =>
    show String.join (arguments.map (· ++ "\n")) = "\n".intercalate arguments ++ "\n"
    -- A newline behind each argument is one between any two and one at the end.
    induction arguments with
    | nil => exact absurd rfl h
    | cons argument arguments ih =>
      cases arguments with
      | nil => simp
      | cons next arguments =>
        rw [List.map_cons, String.join_cons, ih (List.cons_ne_nil _ _),
          String.intercalate_cons_cons]
        simp only [String.append_assoc]

/-- What is printed for a profile is its arguments, joined. -/
theorem prints_kernelArguments (h : Profile.load fs profile = .ok p) (oneLine debugging : Bool)
    (logSetting : Option String) :
    (Invocation.outcome fs logSetting ⟨.kernelArguments profile oneLine, debugging⟩).Prints
      ((String.singleton (separator oneLine)).intercalate (Kernel.argumentsFor p) ++ "\n") := by
  rw [Invocation.prints_iff, Action.transcript_of_load h, Action.transcriptFor_kernelArguments,
    join_kernelArgumentsPieces oneLine (Kernel.argumentsFor_ne_nil p)]

/-- Arguments that are taken apart at separators are what was joined exactly if no value holds
    one. -/
theorem split_argumentsFor_iff (oneLine : Bool) (p : Profile) :
    Text.split (separator oneLine)
        ((String.singleton (separator oneLine)).intercalate (Kernel.argumentsFor p)) =
      Kernel.argumentsFor p ↔
      ∀ value ∈ Kernel.valuesFor p, separator oneLine ∉ value.toList := by
  rw [Text.split_intercalate_eq_self_iff _ (Kernel.argumentsFor_ne_nil p)]
  exact Kernel.forall_notMem_arguments_iff (isForeign_separator oneLine) _ _

/-- **What is read is what was computed**, exactly if the values allow it.  With an argument a line
    no value may hold a newline, on one line none may hold a blank.  So where no value holds
    either, both texts carry the same arguments, from which all that the profile sets is read. -/
theorem kernelArguments_carried (h : Profile.load fs profile = .ok p) (debugging : Bool)
    (logSetting : Option String) :
    ∃ lines words,
      (Invocation.outcome fs logSetting ⟨.kernelArguments profile false, debugging⟩).Prints
        (lines ++ "\n") ∧
      (Invocation.outcome fs logSetting ⟨.kernelArguments profile true, debugging⟩).Prints
        (words ++ "\n") ∧
      (Text.split '\n' lines = Kernel.argumentsFor p ↔
        ∀ value ∈ Kernel.valuesFor p, '\n' ∉ value.toList) ∧
      (Text.split ' ' words = Kernel.argumentsFor p ↔
        ∀ value ∈ Kernel.valuesFor p, ' ' ∉ value.toList) ∧
      ((∀ value ∈ Kernel.valuesFor p, '\n' ∉ value.toList ∧ ' ' ∉ value.toList) →
        Text.split '\n' lines = Text.split ' ' words ∧
          Kernel.read? (Text.split ' ' words) =
            some (Kernel.settings p.spec.hugePages p.spec.cpus.isolated)) := by
  have hlines := split_argumentsFor_iff false p
  have hwords := split_argumentsFor_iff true p
  refine ⟨_, _, prints_kernelArguments h false debugging logSetting,
    prints_kernelArguments h true debugging logSetting, hlines, hwords, fun hvalues => ?_⟩
  have hread := hwords.2 fun value hvalue => (hvalues value hvalue).2
  refine ⟨(hlines.2 fun value hvalue => (hvalues value hvalue).1).trans hread.symm, ?_⟩
  rw [separator] at hread
  rw [separator, hread]
  exact Kernel.read?_arguments _ _

/-- A value of two words is an argument in lines, but not on one line. -/
theorem kernelArguments_carried_twoWords :
    let fs : FileSystem := fun _ => .ok (Text.utf8
      "metadata:\n  name: a\nspec:\n  cpu:\n    isolated: 2-3 quiet\n    nonIsolated: b\n")
    let p := (Profile.new "a" "b").withIsolated "2-3 quiet"
    Profile.load fs "p.yaml" = .ok p ∧ ∃ lines words,
      (Invocation.outcome fs none ⟨.kernelArguments "p.yaml" false, false⟩).Prints (lines ++ "\n") ∧
      (Invocation.outcome fs none ⟨.kernelArguments "p.yaml" true, false⟩).Prints (words ++ "\n") ∧
      Text.split '\n' lines = Kernel.argumentsFor p ∧
      Text.split ' ' words ≠ Kernel.argumentsFor p := by
  intro fs p
  have hread : Yaml.read Profile.schema
      "metadata:\n  name: a\nspec:\n  cpu:\n    isolated: 2-3 quiet\n    nonIsolated: b\n" =
        .ok p :=
    Outcome.toOption_eq_some_iff.1 (by decide +kernel)
  have hload : Profile.load fs "p.yaml" = .ok p := Profile.load_eq_ok_iff.2 ⟨_, rfl, hread⟩
  obtain ⟨lines, words, hlines, hwords, hsplitLines, hsplitWords, -⟩ :=
    kernelArguments_carried hload false none
  -- One value is set; it holds a blank and no line break.
  have hvalues : Kernel.valuesFor p = ["2-3 quiet"] := rfl
  rw [hvalues] at hsplitLines hsplitWords
  exact ⟨hload, lines, words, hlines, hwords, hsplitLines.2 (by decide),
    fun h => absurd (hsplitWords.1 h) (by decide)⟩

end Command

end MachineTuning
