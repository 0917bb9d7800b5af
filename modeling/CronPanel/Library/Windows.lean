import Mathlib.Data.List.Basic
import Mathlib.Data.List.Nodup
import Mathlib.Order.Lattice

namespace CronPanel.Library.Windows

variable {α : Type} {p q : α → Bool} {l : List α} {m a b : ℕ}

/-- The `m` items of a list that come after its first `a`. -/
def window (m a : ℕ) (l : List α) : List α := (l.drop a).take m

/-- Two tests leave a window the same: they both select at most what it skips, or they select
as many items before some point and the same ones from there until the window is full. -/
def SameWindow (m a b : ℕ) (p q : α → Bool) (l : List α) : Prop :=
  l.countP p ≤ a ∧ l.countP q ≤ b ∨
  ∃ before shown after, l = before ++ (shown ++ after) ∧ before.countP p = a ∧ before.countP q = b ∧
    (∀ x ∈ shown, p x = q x) ∧ (m ≤ shown.countP p ∨ after = [])

/-- An item before both windows counts for the tests that select it. -/
theorem SameWindow.cons {x : α} (h : SameWindow m a b p q l) :
    SameWindow m (a + if p x then 1 else 0) (b + if q x then 1 else 0) p q (x :: l) := by
  rcases h with ⟨hp, hq⟩ | ⟨before, shown, after, rfl, rfl, rfl, hagree, hfull⟩
  · refine .inl ⟨?_, ?_⟩
    · rw [List.countP_cons]
      omega
    · rw [List.countP_cons]
      omega
  · exact .inr ⟨x :: before, shown, after, rfl, List.countP_cons, List.countP_cons, hagree, hfull⟩

section Recent

variable {κ : Type} [LinearOrder κ] {c d t : κ} {ts : List κ}

/-- The moments from a cutoff on. -/
def recent (c : κ) (ts : List κ) : List κ := ts.filter (c ≤ ·)

theorem recent_append (c : κ) (ts us : List κ) : recent c (ts ++ us) = recent c ts ++ recent c us :=
  List.filter_append ..

theorem recent_recent (h : c ≤ d) (ts : List κ) : recent d (recent c ts) = recent d ts := by
  rw [recent, recent, List.filter_filter]
  refine List.filter_congr ?_
  intro t _
  rw [Bool.eq_iff_iff, Bool.and_eq_true, decide_eq_true_eq, decide_eq_true_eq]
  exact and_iff_left_of_imp h.trans

/-- What is dropped from the front of sorted moments is all that comes before the cutoff. -/
theorem dropWhile_lt (c : κ) (h : ts.Pairwise (· ≤ ·)) : ts.dropWhile (· < c) = recent c ts := by
  induction ts with
  | nil => rfl
  | cons t ts ih =>
    obtain ⟨hle, hts⟩ := List.pairwise_cons.mp h
    by_cases ht : t < c
    · rw [List.dropWhile_cons_of_pos (by exact decide_eq_true ht), ih hts]
      exact (List.filter_cons_of_neg (by simpa using ht)).symm
    · rw [List.dropWhile_cons_of_neg (by simpa using ht)]
      refine (List.filter_eq_self.mpr ?_).symm
      intro u hu
      rw [decide_eq_true_eq]
      rcases List.mem_cons.mp hu with rfl | hu
      · exact not_lt.mp ht
      · exact (not_lt.mp ht).trans (hle u hu)

theorem pairwise_concat (h : ts.Pairwise (· ≤ ·)) (hle : ∀ u ∈ ts, u ≤ t) :
    (ts ++ [t]).Pairwise (· ≤ ·) := by
  refine List.pairwise_append.mpr ⟨h, List.pairwise_singleton _ _, ?_⟩
  intro u hu v hv
  rw [List.mem_singleton.mp hv]
  exact hle u hu

end Recent

end CronPanel.Library.Windows
