import Mathlib.Logic.Function.Basic

namespace CronPanel.Library.Diffs

open Function

variable {φ ν : Type} [DecidableEq φ]

/-- The value of a field before a change and after it. -/
structure Diff (φ ν : Type) where
  field : φ
  before : ν
  after : ν

/-- Each diff finds the value it starts from, and changes it. -/
def Applies : (φ → ν) → List (Diff φ ν) → (φ → ν) → Prop
  | s, [], t => t = s
  | s, d :: ds, t => s d.field = d.before ∧ d.after ≠ d.before ∧
      Applies (update s d.field d.after) ds t

/-- Taken back in turn, each diff finds the value it has left, another than the one before. -/
def Undoes : (φ → ν) → List (Diff φ ν) → (φ → ν) → Prop
  | s, [], t => t = s
  | s, d :: ds, t => s d.field = d.after ∧ d.after ≠ d.before ∧
      Undoes (update s d.field d.before) ds t

variable {s t u : φ → ν} {ds es : List (Diff φ ν)}

theorem Applies.append (h : Applies s ds t) (h' : Applies t es u) : Applies s (ds ++ es) u := by
  induction ds generalizing s with
  | nil =>
    obtain rfl := h
    exact h'
  | cons d ds ih =>
    obtain ⟨hbefore, hchanged, h⟩ := h
    exact ⟨hbefore, hchanged, ih h⟩

theorem Undoes.append (h : Undoes s ds t) (h' : Undoes t es u) : Undoes s (ds ++ es) u := by
  induction ds generalizing s with
  | nil =>
    obtain rfl := h
    exact h'
  | cons d ds ih =>
    obtain ⟨hafter, hchanged, h⟩ := h
    exact ⟨hafter, hchanged, ih h⟩

theorem Applies.undoes (h : Applies s ds t) : Undoes t ds.reverse s := by
  induction ds generalizing s with
  | nil => exact h.symm
  | cons d ds ih =>
    obtain ⟨hbefore, hchanged, h⟩ := h
    rw [List.reverse_cons]
    refine (ih h).append ⟨update_self .., hchanged, ?_⟩
    rw [update_idem, ← hbefore, update_eq_self]
    rfl

/-- Diffs of distinct fields leave their values behind. -/
theorem Applies.values (h : Applies s ds t) (hfields : (ds.map Diff.field).Nodup) :
    (∀ d ∈ ds, s d.field = d.before ∧ t d.field = d.after ∧ d.after ≠ d.before) ∧
      ∀ f ∉ ds.map Diff.field, t f = s f := by
  induction ds generalizing s with
  | nil =>
    obtain rfl := h
    exact ⟨fun d hd ↦ absurd hd List.not_mem_nil, fun _ _ ↦ rfl⟩
  | cons d ds ih =>
    obtain ⟨hbefore, hchanged, h⟩ := h
    obtain ⟨hfresh, hrest⟩ := List.nodup_cons.mp hfields
    obtain ⟨hvalues, hothers⟩ := ih h hrest
    refine ⟨?_, ?_⟩
    · intro e he
      rcases List.mem_cons.mp he with rfl | he
      · exact ⟨hbefore, (hothers _ hfresh).trans (update_self ..), hchanged⟩
      · have hne : e.field ≠ d.field := fun heq ↦ hfresh (heq ▸ List.mem_map_of_mem he)
        obtain ⟨hstart, hend⟩ := hvalues e he
        rw [update_of_ne hne] at hstart
        exact ⟨hstart, hend⟩
    · intro f hf
      rw [List.map_cons, List.mem_cons, not_or] at hf
      rw [hothers f hf.2, update_of_ne hf.1]

theorem applies_of_values (hfields : (ds.map Diff.field).Nodup)
    (hvalues : ∀ d ∈ ds, s d.field = d.before ∧ t d.field = d.after ∧ d.after ≠ d.before)
    (hothers : ∀ f ∉ ds.map Diff.field, t f = s f) : Applies s ds t := by
  induction ds generalizing s with
  | nil => exact funext fun f ↦ hothers f List.not_mem_nil
  | cons d ds ih =>
    obtain ⟨hfresh, hrest⟩ := List.nodup_cons.mp hfields
    obtain ⟨hbefore, hafter, hchanged⟩ := hvalues d List.mem_cons_self
    refine ⟨hbefore, hchanged, ih hrest ?_ ?_⟩
    · intro e he
      have hne : e.field ≠ d.field := fun heq ↦ hfresh (heq ▸ List.mem_map_of_mem he)
      rw [update_of_ne hne]
      exact hvalues e (List.mem_cons_of_mem _ he)
    · intro f hf
      by_cases hd : f = d.field
      · rw [hd, update_self, hafter]
      · rw [update_of_ne hd]
        refine hothers f ?_
        rw [List.map_cons, List.mem_cons, not_or]
        exact ⟨hd, hf⟩

theorem Applies.unique (h : Applies s ds t) (h' : Applies s ds u) : t = u := by
  induction ds generalizing s with
  | nil => exact h.trans h'.symm
  | cons d ds ih => exact ih h.2.2 h'.2.2

theorem Undoes.split (h : Undoes s (ds ++ es) u) : ∃ t, Undoes s ds t ∧ Undoes t es u := by
  induction ds generalizing s with
  | nil => exact ⟨s, rfl, h⟩
  | cons d ds ih =>
    obtain ⟨hafter, hchanged, h⟩ := h
    obtain ⟨t, hds, hes⟩ := ih h
    exact ⟨t, ⟨hafter, hchanged, hds⟩, hes⟩

/-- What is taken back can be done again. -/
theorem Undoes.applies (h : Undoes s ds t) : Applies t ds.reverse s := by
  induction ds generalizing s with
  | nil => exact h.symm
  | cons d ds ih =>
    obtain ⟨hafter, hchanged, h⟩ := h
    rw [List.reverse_cons]
    refine (ih h).append ⟨update_self .., hchanged, ?_⟩
    rw [update_idem, ← hafter, update_eq_self]
    rfl

end CronPanel.Library.Diffs
