import CronPanel.Library.Strings

namespace CronPanel.Library.Trimming

variable {α : Type} {p q : α → Bool} {t c : List α}

/-- The list without the entries of a kind at its two ends. -/
def trim (p : α → Bool) (t : List α) : List α := (t.dropWhile p).rdropWhile p

def AtEnd (a : α) (t : List α) : Prop := t.head? = some a ∨ t.getLast? = some a

instance [DecidableEq α] (a : α) (t : List α) : Decidable (AtEnd a t) :=
  inferInstanceAs (Decidable (_ ∨ _))

theorem trim_sublist (p : α → Bool) (t : List α) : List.Sublist (trim p t) t :=
  (List.rdropWhile_prefix p (t.dropWhile p)).sublist.trans (List.dropWhile_sublist p)

theorem length_trim_le (p : α → Bool) (t : List α) : (trim p t).length ≤ t.length :=
  (trim_sublist p t).length_le

theorem trim_eq_nil_iff : trim p t = [] ↔ ∀ a ∈ t, p a := by
  rw [trim, List.rdropWhile_eq_nil_iff]
  constructor
  · intro h
    refine List.dropWhile_eq_nil_iff.mp ?_
    cases hdrop : t.dropWhile p with
    | nil => rfl
    | cons a u =>
      have hnot := List.head?_dropWhile_not p t
      rw [hdrop] at h hnot
      exact absurd (h a List.mem_cons_self) (by simpa using hnot)
  · intro h a ha
    exact h a ((List.dropWhile_sublist p).subset ha)

theorem not_of_atEnd_trim {a : α} (h : AtEnd a (trim p t)) : p a = false := by
  unfold trim at h
  rcases h with h | h
  · have hne := List.ne_nil_of_mem (List.mem_of_mem_head? h)
    obtain ⟨u, hu⟩ := List.rdropWhile_prefix p (t.dropWhile p)
    have hhead : (t.dropWhile p).head? = some a := by
      rw [← hu, List.head?_append_of_ne_nil _ hne]
      exact h
    have hnot := List.head?_dropWhile_not p t
    rw [hhead] at hnot
    simpa using hnot
  · have hne := List.ne_nil_of_mem (List.mem_of_getLast? h)
    have hlast := List.rdropWhile_last_not p (t.dropWhile p) hne
    rw [List.getLast?_eq_getLast_of_ne_nil hne] at h
    rw [Option.some.inj h] at hlast
    exact Bool.eq_false_iff.mpr hlast

theorem trim_eq_self_iff : trim p t = t ↔ ∀ a, AtEnd a t → p a = false := by
  constructor
  · intro h a ha
    rw [← h] at ha
    exact not_of_atEnd_trim ha
  · intro h
    have hdrop : t.dropWhile p = t := by
      cases t with
      | nil => rfl
      | cons a u => exact List.dropWhile_cons_of_neg (by simp [h a (.inl rfl)])
    rw [trim, hdrop, List.rdropWhile_eq_self_iff]
    intro hne
    simp [h _ (.inr (List.getLast?_eq_getLast_of_ne_nil hne))]

theorem trim_trim : trim p (trim p t) = trim p t :=
  trim_eq_self_iff.mpr fun _ h ↦ not_of_atEnd_trim h

/-- A list that is not longer than what is left of it has nothing to trim. -/
theorem eq_of_trim (h : trim p t = c) (hlength : t.length ≤ c.length) : t = c := by
  have hsub := trim_sublist p t
  rw [h] at hsub
  exact (hsub.eq_of_length (Nat.le_antisymm hsub.length_le hlength)).symm

theorem eq_of_trim_trim (h : trim q (trim p t) = c) (hlength : t.length ≤ c.length) :
    trim p t = c ∧ t = c := by
  have hinner := eq_of_trim h ((length_trim_le p t).trans hlength)
  exact ⟨hinner, eq_of_trim hinner hlength⟩

theorem AtEnd.mem {a : α} (h : AtEnd a t) : a ∈ t :=
  h.elim (fun h ↦ List.mem_of_mem_head? h) (fun h ↦ List.mem_of_getLast? h)

theorem intercalate_ne_nil {sep : α} {t : List α} (ts : List (List α)) (h : t ≠ []) :
    [sep].intercalate (t :: ts) ≠ [] := by
  cases ts with
  | nil => simpa using h
  | cons u ts =>
    rw [List.intercalate_cons_cons]
    simp

/-- Joined texts that are not empty end as the first and the last of them do. -/
theorem mem_of_atEnd_intercalate {sep a : α} {ts : List (List α)} (hne : ∀ t ∈ ts, t ≠ [])
    (h : AtEnd a ([sep].intercalate ts)) : ∃ t ∈ ts, a ∈ t := by
  induction ts with
  | nil => exact absurd h.mem List.not_mem_nil
  | cons t ts ih =>
    cases ts with
    | nil =>
      rw [List.intercalate_singleton] at h
      exact ⟨t, List.mem_cons_self, h.mem⟩
    | cons u ts =>
      rw [List.intercalate_cons_cons] at h
      rcases h with h | h
      · rw [List.append_assoc, List.head?_append_of_ne_nil _ (hne t List.mem_cons_self)] at h
        exact ⟨t, List.mem_cons_self, List.mem_of_mem_head? h⟩
      · have hrest : [sep].intercalate (u :: ts) ≠ [] :=
          intercalate_ne_nil ts (hne u (List.mem_cons_of_mem t List.mem_cons_self))
        rw [List.getLast?_append_of_ne_nil _ hrest] at h
        obtain ⟨v, hv, ha⟩ := ih (fun v hv ↦ hne v (List.mem_cons_of_mem t hv)) (.inr h)
        exact ⟨v, List.mem_cons_of_mem t hv, ha⟩

end CronPanel.Library.Trimming
