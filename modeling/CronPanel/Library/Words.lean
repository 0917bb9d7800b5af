import Mathlib
import CronPanel.Library.Strings

namespace CronPanel.Library.Words

open Library.Strings

/-- What stands between the words of a sentence. -/
def divides (c : Char) : Bool := isSpace c || c == ','

/-- The words of a sentence in lower case, as far as they are ASCII. -/
def words (t : Text) : List Text :=
  ((t.map Char.toLower).splitOnP divides).filter (fun w ↦ !w.isEmpty)

def isPlain (c : Char) : Bool := c.toLower == c && !divides c

/-- A text that is a word of its own. -/
def Plain (w : Text) : Prop := w ≠ [] ∧ w.all isPlain

instance (w : Text) : Decidable (Plain w) := by
  unfold Plain
  infer_instance

variable {s t w : Text} {c : Char}

@[simp] theorem words_nil : words [] = [] := rfl

/-- A text splits into words at whatever divides it. -/
theorem words_append_cons (hc : divides c.toLower) : words (s ++ c :: t) = words s ++ words t := by
  simp only [words]
  rw [List.map_append, List.map_cons, List.splitOnP_append_cons _ _ hc, List.filter_append]

theorem words_cons (hc : divides c.toLower) : words (c :: t) = words t :=
  words_append_cons (s := []) hc

theorem words_concat (hc : divides c.toLower) : words (s ++ [c]) = words s := by
  rw [words_append_cons hc, words_nil, List.append_nil]

/-- The words of a text that ends in a blank or a comma stand alone. -/
theorem words_append_of_last (h : s.getLast?.any (fun c ↦ divides c.toLower)) :
    words (s ++ t) = words s ++ words t := by
  induction s using List.reverseRecOn with
  | nil => rfl
  | append_singleton s c _ =>
    rw [List.getLast?_concat] at h
    rw [List.append_assoc, List.singleton_append, words_append_cons h, words_concat h]

theorem words_append_of_head (h : t.head?.any (fun c ↦ divides c.toLower)) :
    words (s ++ t) = words s ++ words t := by
  cases t with
  | nil => exact absurd h (by simp)
  | cons c t => rw [words_append_cons h, words_cons h]

theorem words_intercalate {sep : Text} (ts : List Text) (hne : sep ≠ [])
    (hsep : sep.all fun c ↦ divides c.toLower) : words (sep.intercalate ts) = ts.flatMap words := by
  rw [List.all_eq_true] at hsep
  have hlast : sep.getLast?.any (fun c ↦ divides c.toLower) := by
    rw [List.getLast?_eq_getLast_of_ne_nil hne]
    exact hsep _ (List.getLast_mem hne)
  have hhead (u : Text) : (sep ++ u).head?.any (fun c ↦ divides c.toLower) := by
    cases sep with
    | nil => exact absurd rfl hne
    | cons c sep => exact hsep c List.mem_cons_self
  have hnil : words sep = [] := by
    clear hlast hhead hne
    induction sep with
    | nil => rfl
    | cons c sep ih =>
      rw [words_cons (hsep c List.mem_cons_self)]
      exact ih fun d hd ↦ hsep d (List.mem_cons_of_mem c hd)
  induction ts with
  | nil => rfl
  | cons u ts ih =>
    cases ts with
    | nil => simp
    | cons v ts =>
      rw [List.intercalate_cons_cons, List.append_assoc, words_append_of_head (hhead _),
        words_append_of_last hlast, hnil, List.nil_append, ih]
      rfl

theorem divides_of_isSpace (h : isSpace c) : divides c.toLower := by
  have hlower : c.toLower = c := by
    refine Char.toLower_eq_of_not_isUpper fun hupper ↦ ?_
    simp only [Char.isUpper, decide_eq_true_eq, ge_iff_le, UInt32.le_iff_toNat_le] at hupper
    have h₁ : 65 ≤ c.toNat := hupper.1
    have h₂ : c.toNat ≤ 90 := hupper.2
    simp only [isSpace, Bool.or_eq_true, Bool.and_eq_true, decide_eq_true_eq, beq_iff_eq] at h
    omega
  rw [hlower, divides, h, Bool.true_or]

theorem words_strip (t : Text) : words (strip t) = words t :=
  apply_strip (fun _ _ hc ↦ words_cons (divides_of_isSpace hc))
    (fun _ _ hc ↦ words_concat (divides_of_isSpace hc)) t

theorem words_toUpper_cons (c : Char) (t : Text) :
    words (c.toUpper :: t.map Char.toLower) = words (c :: t) := by
  simp only [words, List.map_cons, List.map_map, Char.toLower_toUpper_eq_toLower]
  congr 4
  funext d
  exact Char.toLower_toLower_eq_toLower d

theorem words_of_plain (h : Plain w) : words w = [w] := by
  obtain ⟨hne, hw⟩ := h
  simp only [List.all_eq_true, isPlain, Bool.and_eq_true, beq_iff_eq, Bool.not_eq_true'] at hw
  have hmap : w.map Char.toLower = w := by
    conv_rhs => rw [← List.map_id w]
    exact List.map_congr_left fun c hc ↦ (hw c hc).1
  rw [words, hmap, List.splitOnP_eq_singleton fun c hc ↦ (hw c hc).2]
  simp [hne]

theorem Plain.append (hs : Plain s) (ht : t.all isPlain) : Plain (s ++ t) := by
  refine ⟨List.append_ne_nil_of_left_ne_nil hs.1 t, ?_⟩
  rw [List.all_append, hs.2, ht]
  rfl

theorem flatMap_words {ws : List Text} (h : ∀ w ∈ ws, Plain w) : ws.flatMap words = ws := by
  induction ws with
  | nil => rfl
  | cons w ws ih =>
    rw [List.flatMap_cons, words_of_plain (h w List.mem_cons_self),
      ih fun v hv ↦ h v (List.mem_cons_of_mem w hv)]
    rfl

/-- Two sentences agree up to their first marker and from it on. -/
theorem split_at_first {α : Type} {p : α → Prop} {xs xs' ys ys' : List α} {m m' : α}
    (hxs : ∀ x ∈ xs, ¬p x) (hxs' : ∀ x ∈ xs', ¬p x) (hm : p m) (hm' : p m')
    (h : xs ++ m :: ys = xs' ++ m' :: ys') : xs = xs' ∧ m :: ys = m' :: ys' := by
  induction xs generalizing xs' with
  | nil =>
    cases xs' with
    | nil => exact ⟨rfl, h⟩
    | cons x xs' =>
      obtain ⟨rfl, -⟩ := List.cons.inj h
      exact absurd hm (hxs' m List.mem_cons_self)
  | cons x xs ih =>
    cases xs' with
    | nil =>
      obtain ⟨rfl, -⟩ := List.cons.inj h
      exact absurd hm' (hxs x List.mem_cons_self)
    | cons x' xs' =>
      obtain ⟨rfl, hrest⟩ := List.cons.inj h
      obtain ⟨rfl, hcut⟩ := ih (fun y hy ↦ hxs y (List.mem_cons_of_mem x hy))
        (fun y hy ↦ hxs' y (List.mem_cons_of_mem x hy)) hrest
      exact ⟨rfl, hcut⟩

end CronPanel.Library.Words
