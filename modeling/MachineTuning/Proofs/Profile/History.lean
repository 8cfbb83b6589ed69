import Mathlib.Data.List.Induction
import MachineTuning.Assets
import MachineTuning.Profile.Change

namespace MachineTuning.Profile

/-!
# Profiles — what a history of changes leaves behind

A step sets one optional part of a profile, whatever it held before.  So a part is in the end what
the last step on it made of it, and nothing else of the history can be seen.

* `last` — what the steps of a history set a part to;
* `apply_eq` — a step sets its own part and leaves the rest alone;
* `changed_eq_settled` — so a history sets each part to what the last step on it says;
* `settled_by_last` — and histories with the same last steps lead to the same configuration.
-/

/-! ### Steps -/

/-- The CPUs that a step isolates. -/
def Change.isolated? : Change → Option String
  | .isolated cpus => some cpus
  | _ => none

/-- The huge pages that a step sets. -/
def Change.hugePages? : Change → Option HugePages
  | .hugePages pages => some pages
  | _ => none

/-- The wish for a real-time kernel that a step makes, open or not. -/
def Change.realTimeKernel? : Change → Option RealTimeKernel
  | .realTimeKernel enabled => some ⟨enabled⟩
  | _ => none

/-- The labels that a step sets. -/
def Change.labels? : Change → Option (KeyMap String)
  | .labels map => some map
  | _ => none

/-- A profile with its optional parts set to those that are given. -/
def settled (p : Profile) (isolated : Option String) (hugePages : Option HugePages)
    (realTimeKernel : Option RealTimeKernel) (labels : Option (KeyMap String)) : Profile :=
  { p with
    spec :=
      { cpus := { p.spec.cpus with isolated := isolated.or p.spec.cpus.isolated }
        hugePages := hugePages.or p.spec.hugePages
        realTimeKernel := realTimeKernel.or p.spec.realTimeKernel
        labels := labels.or p.spec.labels } }

/-- **A step** sets its own part and leaves the rest alone. -/
theorem apply_eq (p : Profile) (c : Change) :
    p.apply c = p.settled c.isolated? c.hugePages? c.realTimeKernel? c.labels? := by
  cases c <;> rfl

/-- What is set later counts. -/
theorem settled_settled (p : Profile) (isolated isolated' : Option String)
    (hugePages hugePages' : Option HugePages)
    (realTimeKernel realTimeKernel' : Option RealTimeKernel)
    (labels labels' : Option (KeyMap String)) :
    (p.settled isolated hugePages realTimeKernel labels).settled isolated' hugePages'
        realTimeKernel' labels' =
      p.settled (isolated'.or isolated) (hugePages'.or hugePages)
        (realTimeKernel'.or realTimeKernel) (labels'.or labels) := by
  simp only [settled, Option.or_assoc]

/-! ### Histories -/

/-- What the last step of a history that sets a part sets it to. -/
def last {α : Type} (part? : Change → Option α) (changes : List Change) : Option α :=
  (changes.filterMap part?).getLast?

/-- The last change of a part is the one at the end, if that is one, or else one before. -/
theorem last_concat {α : Type} (part? : Change → Option α) (changes : List Change) (c : Change) :
    last part? (changes ++ [c]) = (part? c).or (last part? changes) := by
  rw [last, List.filterMap_append, List.getLast?_append]
  cases h : part? c <;> simp [h, last]

/-- The last change is made behind all the others. -/
theorem changed_concat (p : Profile) (changes : List Change) (c : Change) :
    p.changed (changes ++ [c]) = (p.changed changes).apply c := by
  rw [changed, List.foldl_append]
  rfl

/-- **A history** sets each part to what the last step on it says. -/
theorem changed_eq_settled (p : Profile) (changes : List Change) :
    p.changed changes = p.settled (last Change.isolated? changes) (last Change.hugePages? changes)
      (last Change.realTimeKernel? changes) (last Change.labels? changes) := by
  -- The induction is from the back, where the step stands that counts.
  induction changes using List.reverseRecOn with
  | nil => rfl
  | append_singleton changes c ih =>
    rw [changed_concat, ih, apply_eq, settled_settled]
    simp only [last_concat]

/-- Two histories end with the same step on each part. -/
structure EndAlike (changes changes' : List Change) : Prop where
  isolated : last Change.isolated? changes = last Change.isolated? changes'
  hugePages : last Change.hugePages? changes = last Change.hugePages? changes'
  realTimeKernel : last Change.realTimeKernel? changes = last Change.realTimeKernel? changes'
  labels : last Change.labels? changes = last Change.labels? changes'

/-- Changes that end alike lead to the same profile. -/
theorem EndAlike.changed_eq {changes changes' : List Change} (h : EndAlike changes changes')
    (p : Profile) : p.changed changes = p.changed changes' := by
  rw [changed_eq_settled, changed_eq_settled, h.isolated, h.hugePages, h.realTimeKernel, h.labels]

/-- **The last step on each part** decides what becomes of a new profile: the part holds what that
    step gave it, and is missing if there was none.  What no step sets stays as it was at the start.
    So two histories that end alike, in whatever order and after whatever other steps, lead to the
    same profile, and the same configuration is built of it from the same assets. -/
theorem settled_by_last (name housekeeping : String) (changes : List Change) :
    (new name housekeeping).changed changes =
        { apiVersion := (new name housekeeping).apiVersion
          kind := (new name housekeeping).kind
          name := name
          spec :=
            { cpus := { isolated := last Change.isolated? changes, housekeeping }
              hugePages := last Change.hugePages? changes
              realTimeKernel := last Change.realTimeKernel? changes
              labels := last Change.labels? changes } } ∧
      ∀ changes', EndAlike changes changes' →
        (new name housekeeping).changed changes = (new name housekeeping).changed changes' ∧
        ∀ fs directory,
          MachineConfig.build fs directory ((new name housekeeping).changed changes) =
            MachineConfig.build fs directory ((new name housekeeping).changed changes') := by
  refine ⟨?_, fun changes' h => ?_⟩
  · rw [changed_eq_settled]
    -- A new profile has none of the optional parts, so that only the steps can have set them.
    simp [settled, new]
  · have hchanged := h.changed_eq (new name housekeeping)
    exact ⟨hchanged, fun fs directory => by rw [hchanged]⟩

/-- An open wish in the end outdoes an earlier one, and CPUs are isolated anew. -/
theorem settled_by_last_overruled :
    let changes := [.isolated "1", .realTimeKernel (some true), .hugePages ⟨none, [⟨"1G", 4⟩]⟩,
      .isolated "2-3", .realTimeKernel none]
    let changes' := [.realTimeKernel none, .isolated "2-3", .hugePages ⟨none, [⟨"1G", 4⟩]⟩]
    EndAlike changes changes' ∧
      (new "a" "0-1").changed changes =
        ⟨none, none, "a", ⟨⟨some "2-3", "0-1"⟩, some ⟨none, [⟨"1G", 4⟩]⟩, some ⟨none⟩, none⟩⟩ ∧
      (new "a" "0-1").changed changes = (new "a" "0-1").changed changes' := by
  intro changes changes'
  have h : EndAlike changes changes' := ⟨rfl, rfl, rfl, rfl⟩
  obtain ⟨hchanged, hsame⟩ := settled_by_last "a" "0-1" changes
  exact ⟨h, hchanged, (hsame changes' h).1⟩

end MachineTuning.Profile
