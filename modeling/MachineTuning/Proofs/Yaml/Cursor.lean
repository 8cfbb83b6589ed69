import Mathlib.Data.List.Basic
import MachineTuning.Text.Utf8
import MachineTuning.Yaml.Cursor

namespace MachineTuning.Yaml

/-!
# Cursors — where some characters lead

`Mark.after` is the place behind some characters.  It says how many bytes and lines lie between
two places, which decides whether a key may span them.
-/

namespace Mark

/-- The place behind some characters.  A line feed is taken for a break of its own. -/
def after (m : Mark) : List Char → Mark
  | [] => m
  | c :: cs => after (if isBreak c then m.nextLine c.utf8Size else m.next c) cs

/-- A character takes up as many bytes as its encoding. -/
@[simp] theorem offset_next (m : Mark) (c : Char) : (m.next c).offset = m.offset + c.utf8Size := rfl

/-- A character other than a line break stays on its line. -/
@[simp] theorem line_next (m : Mark) (c : Char) : (m.next c).line = m.line := rfl

/-- A character other than a line break takes up one column. -/
@[simp] theorem column_next (m : Mark) (c : Char) : (m.next c).column = m.column + 1 := rfl

/-- A line break takes up its bytes. -/
@[simp] theorem offset_nextLine (m : Mark) (width : Nat) :
    (m.nextLine width).offset = m.offset + width := rfl

/-- A line break leads to the next line. -/
@[simp] theorem line_nextLine (m : Mark) (width : Nat) :
    (m.nextLine width).line = m.line + 1 := rfl

/-- A line starts at the first column. -/
@[simp] theorem column_nextLine (m : Mark) (width : Nat) : (m.nextLine width).column = 0 := rfl

/-- The place behind two texts in a row. -/
theorem after_append (m : Mark) (cs ds : List Char) :
    m.after (cs ++ ds) = (m.after cs).after ds := by
  induction cs generalizing m with
  | nil => rfl
  | cons c cs ih => exact ih _

/-- The place behind a text that does not start with a line break. -/
theorem after_cons_of_not_isBreak (m : Mark) {c : Char} (h : isBreak c = false) (cs : List Char) :
    m.after (c :: cs) = (m.next c).after cs := by
  rw [after, h]
  rfl

/-- Behind a text all its bytes have been passed. -/
theorem offset_after (m : Mark) (cs : List Char) :
    (m.after cs).offset = m.offset + Text.byteLength cs := by
  induction cs generalizing m with
  | nil => rfl
  | cons c cs ih =>
    rw [after, ih, Text.byteLength_cons]
    -- A break moves on by its bytes too.
    split <;> simp only [offset_next, offset_nextLine] <;> omega

/-- Lines do not go back. -/
theorem line_le_line_after (m : Mark) (cs : List Char) : m.line ≤ (m.after cs).line := by
  induction cs generalizing m with
  | nil => exact Nat.le_refl _
  | cons c cs ih =>
    refine Nat.le_trans ?_ (ih _)
    split
    · exact Nat.le_succ _
    · exact Nat.le_refl _

/-- A break starts a line. -/
theorem column_after_eq_zero_iff (m : Mark) {cs : List Char} (h : cs ≠ []) :
    (m.after cs).column = 0 ↔ cs.getLast?.any isBreak := by
  obtain ⟨cs, c, rfl⟩ := (List.eq_nil_or_concat' cs).resolve_left h
  rw [after_append, after, after, List.getLast?_concat, Option.any_some]
  cases isBreak c <;> simp

/-- A break leads to a later line. -/
theorem line_lt_line_after (m : Mark) {cs : List Char} (h : ∃ c ∈ cs, isBreak c) :
    m.line < (m.after cs).line := by
  obtain ⟨c, hc, hbreak⟩ := h
  obtain ⟨before, behind, rfl⟩ := List.append_of_mem hc
  have hbefore := line_le_line_after m before
  have hbehind := line_le_line_after ((m.after before).nextLine c.utf8Size) behind
  rw [line_nextLine] at hbehind
  rw [after_append, after, if_pos hbreak]
  omega

/-- Without a break the column counts characters. -/
theorem column_after (m : Mark) {cs : List Char} (h : ∀ c ∈ cs, isBreak c = false) :
    (m.after cs).column = m.column + cs.length := by
  induction cs generalizing m with
  | nil => rfl
  | cons c cs ih =>
    obtain ⟨hc, hcs⟩ := List.forall_mem_cons.1 h
    rw [after_cons_of_not_isBreak m hc, ih _ hcs, column_next, List.length_cons]
    omega

/-- Characters that are no breaks stay on the line. -/
theorem line_after_eq_iff (m : Mark) (cs : List Char) :
    (m.after cs).line = m.line ↔ ∀ c ∈ cs, isBreak c = false := by
  induction cs generalizing m with
  | nil => simp [after]
  | cons c cs ih =>
    rw [after, List.forall_mem_cons]
    cases hc : isBreak c with
    | true =>
      have hle := line_le_line_after (m.nextLine c.utf8Size) cs
      rw [line_nextLine] at hle
      simp only [if_true, Bool.true_eq_false, false_and, iff_false]
      omega
    | false =>
      have hnext := ih (m.next c)
      rw [line_next] at hnext
      simpa using hnext

end Mark

/-- Characters that break no line are passed over by their number. -/
theorem Cursor.skip_append {cs : List Char} (h : ∀ c ∈ cs, isBreak c = false) (rest : List Char)
    (m : Mark) : Cursor.skip cs.length ⟨cs ++ rest, m⟩ = ⟨rest, m.after cs⟩ := by
  induction cs generalizing m with
  | nil => rfl
  | cons c cs ih =>
    obtain ⟨hc, hcs⟩ := List.forall_mem_cons.1 h
    rw [List.length_cons, List.cons_append, skip, ih hcs, Mark.after_cons_of_not_isBreak m hc]

/-- No line break is taken from what is none. -/
theorem Cursor.takeBreak?_of_not_isBreak {c : Char} (h : isBreak c = false) (cs : List Char)
    (m : Mark) : Cursor.takeBreak? ⟨c :: cs, m⟩ = none := by
  unfold takeBreak?
  split
  · next heq =>
    obtain rfl : c = '\r' := (List.cons.inj heq).1
    cases h
  · next heq =>
    obtain ⟨rfl, rfl⟩ := List.cons.inj heq
    rw [if_neg (by simp [h])]
  · next heq => cases heq

/-- Characters of a class are taken up to one that is not in it. -/
theorem Cursor.takeWhile_append {p : Char → Bool} {taken rest : List Char}
    (htaken : ∀ c ∈ taken, p c ∧ isBreak c = false) (hrest : rest.head?.any p = false) (m : Mark) :
    Cursor.takeWhile p ⟨taken ++ rest, m⟩ = (taken, ⟨rest, m.after taken⟩) := by
  show takeWhile.go p (taken ++ rest) m = _
  induction taken generalizing m with
  | nil =>
    cases rest with
    | nil => rfl
    | cons c rest =>
      have hc : p c = false := hrest
      simp [takeWhile.go, hc, Mark.after]
  | cons c taken ih =>
    obtain ⟨⟨hc, hbreak⟩, htaken⟩ := List.forall_mem_cons.1 htaken
    simp [takeWhile.go, hc, ih htaken, Mark.after_cons_of_not_isBreak m hbreak]

/-- A line break of one character is taken as it counts. -/
theorem Cursor.takeBreak?_of_isBreak {c : Char} (h : isBreak c) (hc : c ≠ '\r') (cs : List Char)
    (m : Mark) :
    Cursor.takeBreak? ⟨c :: cs, m⟩ = some (breakChar c, ⟨cs, m.nextLine c.utf8Size⟩) := by
  unfold takeBreak?
  split
  · next heq => exact absurd (List.cons.inj heq).1 hc
  · next heq =>
    obtain ⟨rfl, rfl⟩ := List.cons.inj heq
    rw [if_pos h]
  · next heq => cases heq

/-- An indicator does not start with another character. -/
theorem Cursor.atIndicator_of_ne {c d : Char} (h : d ≠ c) (cs : List Char) (m : Mark) :
    Cursor.atIndicator d ⟨c :: cs, m⟩ = false := by
  simp [atIndicator, List.isPrefixOf?, h]

end MachineTuning.Yaml
