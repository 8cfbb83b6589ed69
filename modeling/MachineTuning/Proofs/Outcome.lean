import Mathlib.Data.List.Forall2

namespace MachineTuning.Outcome

/-!
# Outcomes — what must have gone well for a whole to go well

Readers and builders give an outcome that is a value or a failure.  Steps in a row give a value
exactly if each of them does; `bind_eq_ok_iff` says so for two steps, `mapM_eq_ok_iff` for the
steps over a list and `filterMapM_eq_ok_iff` for those that may drop what they are given.  They fail
as the first step that fails does, as `bind_eq_error_iff` and `mapM_eq_error_iff` say.
-/

variable {α β ε : Type}

/-- Two steps give a value exactly if the first does and the second does with it. -/
theorem bind_eq_ok_iff {x : Except ε α} {f : α → Except ε β} {b : β} :
    (x >>= f) = .ok b ↔ ∃ a, x = .ok a ∧ f a = .ok b := by
  cases x with
  | error e => simp [bind, Except.bind]
  | ok a => simp [bind, Except.bind]

/-- Two steps fail as the first does, or as the second does behind it. -/
theorem bind_eq_error_iff {x : Except ε α} {f : α → Except ε β} {e : ε} :
    (x >>= f) = .error e ↔ x = .error e ∨ ∃ a, x = .ok a ∧ f a = .error e := by
  cases x with
  | error e => simp [bind, Except.bind]
  | ok a => simp [bind, Except.bind]

/-- What is made of a value is there exactly if the value is. -/
theorem map_eq_ok_iff {f : α → β} {x : Except ε α} {b : β} :
    x.map f = .ok b ↔ ∃ a, x = .ok a ∧ f a = b := by
  cases x <;> simp [Except.map]

/-- Failures that are told otherwise leave the values alone. -/
theorem mapError_eq_ok_iff {ε' : Type} {x : Except ε α} {f : ε → ε'} {a : α} :
    x.mapError f = .ok a ↔ x = .ok a := by
  cases x <;> simp [Except.mapError]

/-- A failure that is told otherwise is told of a failure. -/
theorem mapError_eq_error_iff {ε' : Type} {x : Except ε α} {f : ε → ε'} {e : ε'} :
    x.mapError f = .error e ↔ ∃ cause, x = .error cause ∧ f cause = e := by
  cases x <;> simp [Except.mapError]

/-- A value is what is left of an outcome without its failure. -/
theorem toOption_eq_some_iff {x : Except ε α} {a : α} : x.toOption = some a ↔ x = .ok a := by
  cases x <;> simp [Except.toOption]

/-- Steps over a list give the list of what each step gives. -/
theorem mapM_eq_ok_iff {f : α → Except ε β} {l : List α} {r : List β} :
    l.mapM f = .ok r ↔ List.Forall₂ (fun a b => f a = .ok b) l r := by
  induction l generalizing r with
  | nil => simp [pure, Except.pure, eq_comm]
  | cons a l ih =>
    rw [List.mapM_cons, List.forall₂_cons_left_iff, bind_eq_ok_iff]
    constructor
    · rintro ⟨b, hb, hrest⟩
      obtain ⟨bs, hbs, heq⟩ := bind_eq_ok_iff.1 hrest
      exact ⟨b, bs, hb, ih.1 hbs, (Except.ok.inj heq).symm⟩
    · rintro ⟨b, bs, hb, hbs, rfl⟩
      exact ⟨b, hb, bind_eq_ok_iff.2 ⟨bs, ih.2 hbs, rfl⟩⟩

/-- Steps over a list fail as the first step that fails does. -/
theorem mapM_eq_error_iff {f : α → Except ε β} {l : List α} {e : ε} :
    l.mapM f = .error e ↔ ∃ before a after, l = before ++ a :: after ∧
      (∀ b ∈ before, ∃ r, f b = .ok r) ∧ f a = .error e := by
  induction l with
  | nil => simp [pure, Except.pure]
  | cons a l ih =>
    -- Either the first step fails, or it goes well and a later one fails.
    rw [List.mapM_cons, bind_eq_error_iff]
    constructor
    · rintro (ha | ⟨b, hb, hrest⟩)
      · exact ⟨[], a, l, rfl, nofun, ha⟩
      · rcases bind_eq_error_iff.1 hrest with hl | ⟨_, _, hpure⟩
        · obtain ⟨before, c, after, rfl, hbefore, hc⟩ := ih.1 hl
          exact ⟨a :: before, c, after, rfl, List.forall_mem_cons.2 ⟨⟨b, hb⟩, hbefore⟩, hc⟩
        · cases hpure
    · rintro ⟨before, c, after, heq, hbefore, hc⟩
      cases before with
      | nil =>
        obtain ⟨rfl, rfl⟩ := List.cons.inj heq
        exact .inl hc
      | cons b before =>
        obtain ⟨rfl, rfl⟩ := List.cons.inj heq
        obtain ⟨⟨r, hr⟩, hbefore⟩ := List.forall_mem_cons.1 hbefore
        exact .inr ⟨r, hr, bind_eq_error_iff.2 (.inl (ih.2 ⟨before, c, after, rfl, hbefore, hc⟩))⟩

/-- Where every step gives a value, so do the steps over a list. -/
theorem mapM_eq_ok {f : α → Except ε β} {g : α → β} {l : List α}
    (h : ∀ a ∈ l, f a = .ok (g a)) : l.mapM f = .ok (l.map g) := by
  rw [mapM_eq_ok_iff, List.forall₂_map_right_iff, List.forall₂_same]
  exact h

/-- Steps that may drop what they are given go well together exactly if each goes well. -/
theorem filterMapM_eq_ok_iff {f : α → Except ε (Option β)} {l : List α} {r : List β} :
    l.filterMapM f = .ok r ↔ ∃ g, (∀ a ∈ l, f a = .ok (g a)) ∧ r = l.filterMap g := by
  constructor
  · intro h
    -- What each step gives is read off the steps themselves; where one fails it does not matter.
    refine ⟨fun a => (f a).toOption.join, ?_⟩
    induction l generalizing r with
    | nil => exact ⟨nofun, (Except.ok.inj h).symm⟩
    | cons a l ih =>
      rw [List.filterMapM_cons] at h
      obtain ⟨b?, hb, h⟩ := bind_eq_ok_iff.1 h
      have hjoin : (f a).toOption.join = b? := by rw [hb]; rfl
      have ha : f a = .ok (f a).toOption.join := hb.trans (congrArg _ hjoin.symm)
      -- The two cases keep the same hypothesis for the rest and differ in what is put in front.
      cases b? with
      | none =>
        obtain ⟨hl, hr⟩ := ih h
        exact ⟨List.forall_mem_cons.2 ⟨ha, hl⟩, by rw [List.filterMap_cons, hjoin, hr]⟩
      | some b =>
        obtain ⟨r', hr', h⟩ := bind_eq_ok_iff.1 h
        obtain ⟨hl, hr⟩ := ih hr'
        refine ⟨List.forall_mem_cons.2 ⟨ha, hl⟩, ?_⟩
        rw [List.filterMap_cons, hjoin, ← Except.ok.inj h, hr]
  · rintro ⟨g, hg, rfl⟩
    induction l with
    | nil => rfl
    | cons a l ih =>
      obtain ⟨ha, hl⟩ := List.forall_mem_cons.1 hg
      rw [List.filterMapM_cons, ha, List.filterMap_cons]
      refine bind_eq_ok_iff.2 ⟨g a, rfl, ?_⟩
      cases g a with
      | none => exact ih hl
      | some b => exact bind_eq_ok_iff.2 ⟨_, ih hl, rfl⟩

/-- Where every step goes well and none drops anything, all is kept. -/
theorem filterMapM_eq_ok {f : α → Except ε (Option β)} {g : α → β} {l : List α}
    (h : ∀ a ∈ l, f a = .ok (some (g a))) : l.filterMapM f = .ok (l.map g) :=
  filterMapM_eq_ok_iff.2 ⟨fun a => some (g a), h, by rw [List.filterMap_eq_map']⟩

end MachineTuning.Outcome
