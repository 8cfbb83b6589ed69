namespace MachineTuning.Text

/-!
# Splitting text at a character

`split` cuts a text at every occurrence of a character; there is always one piece more than
there are cuts.  A text without the character is one piece (`splitChars_of_notMem`), its first
occurrence ends the first piece (`splitChars_append_cons`), and no piece holds the character
(`notMem_of_mem_splitChars`).  Pieces that were joined by the character come back exactly if none of
them holds it (`split_intercalate_eq_self_iff`).  `cut` cuts a text at the first occurrence only.
-/

/-- The pieces between the occurrences of a character. -/
def splitChars (c : Char) : List Char → List (List Char)
  | [] => [[]]
  | d :: cs =>
    match splitChars c cs with
    | [] => [[]]
    | piece :: pieces => if d = c then [] :: piece :: pieces else (d :: piece) :: pieces

/-- The pieces of a text between the occurrences of a character. -/
def split (c : Char) (s : String) : List String :=
  (splitChars c s.toList).map String.ofList

/-- What stands in front of the first occurrence of a character, and what behind it. -/
def cut (c : Char) (cs : List Char) : List Char × List Char :=
  (cs.takeWhile (· ≠ c), (cs.dropWhile (· ≠ c)).drop 1)

/-- A text is cut at the first separator. -/
theorem cut_append_cons {c : Char} {piece : List Char} (h : c ∉ piece) (cs : List Char) :
    cut c (piece ++ c :: cs) = (piece, cs) := by
  have hpiece : ∀ d ∈ piece, decide (d ≠ c) = true := by
    intro d hd
    rw [decide_eq_true_eq]
    rintro rfl
    exact h hd
  rw [cut, List.takeWhile_append_of_pos hpiece, List.dropWhile_append_of_pos hpiece]
  simp

/-- What stands behind the cut stood in the text. -/
theorem mem_of_mem_cut_snd {c d : Char} {cs : List Char} (h : d ∈ (cut c cs).2) : d ∈ cs :=
  (List.dropWhile_suffix _).subset (List.mem_of_mem_drop h)

/-- A text has at least one piece. -/
theorem splitChars_ne_nil (c : Char) (cs : List Char) : splitChars c cs ≠ [] := by
  cases cs with
  | nil => simp [splitChars]
  | cons d cs =>
    rw [splitChars]
    split
    · simp
    · split <;> simp

/-- A separator in front adds an empty piece. -/
theorem splitChars_cons_self (c : Char) (cs : List Char) :
    splitChars c (c :: cs) = [] :: splitChars c cs := by
  rw [splitChars]
  cases h : splitChars c cs with
  | nil => exact absurd h (splitChars_ne_nil c cs)
  | cons piece pieces => simp

/-- Another character in front belongs to the first piece. -/
theorem splitChars_cons_of_ne {c d : Char} (h : d ≠ c) {cs piece : List Char}
    {pieces : List (List Char)} (hcs : splitChars c cs = piece :: pieces) :
    splitChars c (d :: cs) = (d :: piece) :: pieces := by
  rw [splitChars, hcs]
  simp [h]

/-- The first occurrence of the character ends the first piece. -/
theorem splitChars_append_cons {c : Char} {piece : List Char} (h : c ∉ piece) (cs : List Char) :
    splitChars c (piece ++ c :: cs) = piece :: splitChars c cs := by
  induction piece with
  | nil => exact splitChars_cons_self c cs
  | cons d piece ih =>
    obtain ⟨hd, hpiece⟩ := not_or.1 (mt List.mem_cons.2 h)
    exact splitChars_cons_of_ne (Ne.symm hd) (ih hpiece)

/-- An occurrence of the character keeps the pieces on its sides apart. -/
theorem splitChars_append (c : Char) (cs ds : List Char) :
    splitChars c (cs ++ c :: ds) = splitChars c cs ++ splitChars c ds := by
  induction cs with
  | nil => exact splitChars_cons_self c ds
  | cons d cs ih =>
    by_cases hd : d = c
    · subst hd
      rw [List.cons_append, splitChars_cons_self, splitChars_cons_self, ih]
      rfl
    · obtain ⟨piece, pieces, hcs⟩ := List.exists_cons_of_ne_nil (splitChars_ne_nil c cs)
      rw [hcs] at ih
      rw [List.cons_append, splitChars_cons_of_ne hd hcs, splitChars_cons_of_ne hd ih]
      rfl

/-- Without the character a text is one piece. -/
theorem splitChars_of_notMem {c : Char} {cs : List Char} (h : c ∉ cs) :
    splitChars c cs = [cs] := by
  induction cs with
  | nil => rfl
  | cons d cs ih =>
    obtain ⟨hd, hcs⟩ := not_or.1 (mt List.mem_cons.2 h)
    exact splitChars_cons_of_ne (Ne.symm hd) (ih hcs)

/-- Pieces hold no more of the character. -/
theorem notMem_of_mem_splitChars {c : Char} {cs piece : List Char} (h : piece ∈ splitChars c cs) :
    c ∉ piece := by
  induction cs generalizing piece with
  | nil =>
    rw [splitChars, List.mem_singleton] at h
    simp [h]
  | cons d cs ih =>
    by_cases hd : d = c
    · subst hd
      rw [splitChars_cons_self] at h
      rcases List.mem_cons.1 h with rfl | h
      · simp
      · exact ih h
    · obtain ⟨first, pieces, hcs⟩ := List.exists_cons_of_ne_nil (splitChars_ne_nil c cs)
      rw [splitChars_cons_of_ne hd hcs] at h
      rw [hcs] at ih
      rcases List.mem_cons.1 h with rfl | h
      · simpa [Ne.symm hd] using ih List.mem_cons_self
      · exact ih (List.mem_cons_of_mem _ h)

/-- Pieces that are joined by the character are split one by one. -/
theorem splitChars_intercalate (c : Char) {pieces : List (List Char)} (h : pieces ≠ []) :
    splitChars c ([c].intercalate pieces) = pieces.flatMap (splitChars c) := by
  induction pieces with
  | nil => exact absurd rfl h
  | cons piece pieces ih =>
    cases pieces with
    | nil => rw [List.intercalate_singleton, List.flatMap_singleton]
    | cons next pieces =>
      rw [List.intercalate_cons_cons, List.append_assoc, List.singleton_append, splitChars_append,
        ih (List.cons_ne_nil _ _)]
      rfl

/-- Splitting leaves pieces as they are exactly if none of them holds the character. -/
theorem flatMap_splitChars_eq_self_iff {c : Char} {pieces : List (List Char)} :
    pieces.flatMap (splitChars c) = pieces ↔ ∀ piece ∈ pieces, c ∉ piece := by
  constructor
  · intro h piece hpiece
    rw [← h] at hpiece
    obtain ⟨whole, -, hsplit⟩ := List.mem_flatMap.1 hpiece
    exact notMem_of_mem_splitChars hsplit
  · intro h
    induction pieces with
    | nil => rfl
    | cons piece pieces ih =>
      obtain ⟨hpiece, hpieces⟩ := List.forall_mem_cons.1 h
      rw [List.flatMap_cons, splitChars_of_notMem hpiece, ih hpieces, List.singleton_append]

/-- **Pieces that were joined come back** exactly if none of them holds the character between
    them. -/
theorem split_intercalate_eq_self_iff (c : Char) {pieces : List String} (h : pieces ≠ []) :
    split c ((String.singleton c).intercalate pieces) = pieces ↔
      ∀ piece ∈ pieces, c ∉ piece.toList := by
  have hne : pieces.map String.toList ≠ [] := by simpa using h
  have htexts : (pieces.map String.toList).map String.ofList = pieces := by
    simp [Function.comp_def]
  rw [split, String.toList_intercalate, String.toList_singleton, splitChars_intercalate c hne]
  -- As texts and as lists of characters the pieces are the same.
  conv => lhs; rhs; rw [← htexts]
  rw [List.map_inj_right fun _ _ => String.ofList_injective, flatMap_splitChars_eq_self_iff,
    List.forall_mem_map]

end MachineTuning.Text
