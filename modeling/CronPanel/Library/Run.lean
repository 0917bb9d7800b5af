import Mathlib.Data.Option.Basic
import Mathlib.Data.List.Basic

namespace CronPanel.Library.Run

variable {σ α : Type} (step : σ → α → Option σ)

/-- The state after the actions, taken in order; `none` when one of them is
not possible where it is asked for. -/
def exec : σ → List α → Option σ
  | s, [] => some s
  | s, a :: as => (step s a).bind fun t ↦ exec t as

/-- `P` holds in every state a run goes through, its two ends included. -/
def Always (P : σ → Prop) : σ → List α → Prop
  | s, [] => P s
  | s, a :: as => P s ∧ ∀ t, step s a = some t → Always P t as

/-- Every action of a run meets `C` in the state it is taken from. -/
def Guarded (C : σ → α → Prop) : σ → List α → Prop
  | _, [] => True
  | s, a :: as => C s a ∧ ∀ t, step s a = some t → Guarded C t as

variable {step}

instance Always.decidable (P : σ → Prop) [DecidablePred P] : ∀ s as, Decidable (Always step P s as)
  | s, [] => inferInstanceAs (Decidable (P s))
  | s, a :: as =>
    match h : step s a with
    | none => decidable_of_iff (P s) (by simp [Always, h])
    | some t =>
      have := Always.decidable P t as
      decidable_of_iff (P s ∧ Always step P t as) (by simp [Always, h])

instance Guarded.decidable (C : σ → α → Prop) [∀ s a, Decidable (C s a)] :
    ∀ s as, Decidable (Guarded step C s as)
  | _, [] => inferInstanceAs (Decidable True)
  | s, a :: as =>
    match h : step s a with
    | none => decidable_of_iff (C s a) (by simp [Guarded, h])
    | some t =>
      have := Guarded.decidable C t as
      decidable_of_iff (C s a ∧ Guarded step C t as) (by simp [Guarded, h])

theorem exec_cons {s u : σ} {a : α} {as : List α} :
    exec step s (a :: as) = some u ↔ ∃ t, step s a = some t ∧ exec step t as = some u := by
  simp only [exec, Option.bind_eq_some_iff]

theorem exec_concat {s u : σ} {as : List α} {a : α} :
    exec step s (as ++ [a]) = some u ↔ ∃ t, exec step s as = some t ∧ step t a = some u := by
  induction as generalizing s with
  | nil => simp [exec]
  | cons b as ih =>
    rw [List.cons_append, exec_cons]
    constructor
    · intro h
      obtain ⟨r, hr, h⟩ := h
      obtain ⟨t, ht, hu⟩ := ih.mp h
      exact ⟨t, exec_cons.mpr ⟨r, hr, ht⟩, hu⟩
    · intro h
      obtain ⟨t, ht, hu⟩ := h
      obtain ⟨r, hr, ht⟩ := exec_cons.mp ht
      exact ⟨r, hr, ih.mpr ⟨t, ht, hu⟩⟩

/-- Repeating one action leads from a state to another. -/
def Reaches (step : σ → α → Option σ) (a : α) (s t : σ) : Prop :=
  ∃ n, exec step s (List.replicate n a) = some t

theorem Reaches.single {a : α} {s t : σ} (h : step s a = some t) : Reaches step a s t :=
  ⟨1, exec_cons.mpr ⟨t, h, rfl⟩⟩

theorem Reaches.head {a : α} {s t u : σ} (h : step s a = some t) (ht : Reaches step a t u) :
    Reaches step a s u := by
  obtain ⟨n, hn⟩ := ht
  exact ⟨n + 1, exec_cons.mpr ⟨t, h, hn⟩⟩

theorem guarded_always {I : σ → Prop} {C : σ → α → Prop}
    (hstep : ∀ s a t, I s → C s a → step s a = some t → I t)
    {s : σ} {as : List α} (hs : I s) (hg : Guarded step C s as) : Always step I s as := by
  induction as generalizing s with
  | nil => exact hs
  | cons a as ih => exact ⟨hs, fun t ht ↦ ih (hstep s a t hs hg.1 ht) (hg.2 t ht)⟩

theorem always {I : σ → Prop} (hstep : ∀ s a t, I s → step s a = some t → I t)
    {s : σ} {as : List α} (hs : I s) : Always step I s as := by
  induction as generalizing s with
  | nil => exact hs
  | cons a as ih => exact ⟨hs, fun t ht ↦ ih (hstep s a t hs ht)⟩

theorem guarded_of_forall {C : σ → α → Prop} (h : ∀ s a, C s a) (s : σ) (as : List α) :
    Guarded step C s as := by
  induction as generalizing s with
  | nil => trivial
  | cons a as ih => exact ⟨h s a, fun t _ ↦ ih t⟩

theorem guarded_of_mem {C : α → Prop} {as : List α} (h : ∀ a ∈ as, C a) (s : σ) :
    Guarded step (fun _ a ↦ C a) s as := by
  induction as generalizing s with
  | nil => trivial
  | cons a as ih =>
    obtain ⟨ha, has⟩ := List.forall_mem_cons.mp h
    exact ⟨ha, fun t _ ↦ ih has t⟩

theorem guarded_of_invariant {I : σ → Prop} {C : σ → α → Prop}
    (hstep : ∀ s a t, I s → step s a = some t → I t) (h : ∀ s a, I s → C s a)
    {s : σ} (hs : I s) (as : List α) : Guarded step C s as := by
  induction as generalizing s with
  | nil => trivial
  | cons a as ih => exact ⟨h s a hs, fun t ht ↦ ih (hstep s a t hs ht)⟩

theorem always_mono {P Q : σ → Prop} (h : ∀ s, P s → Q s) {s : σ} {as : List α}
    (ha : Always step P s as) : Always step Q s as := by
  induction as generalizing s with
  | nil => exact h s ha
  | cons a as ih => exact ⟨h s ha.1, fun t ht ↦ ih (ha.2 t ht)⟩

theorem Always.head {P : σ → Prop} {s : σ} {as : List α} (h : Always step P s as) : P s := by
  cases as with
  | nil => exact h
  | cons a as => exact h.1

theorem guarded_cons {C : σ → α → Prop} {s t : σ} {a : α} {as : List α} (ht : step s a = some t)
    (ha : C s a) (has : Guarded step C t as) : Guarded step C s (a :: as) := by
  refine ⟨ha, fun u hu ↦ ?_⟩
  obtain rfl := Option.some.inj (ht.symm.trans hu)
  exact has

theorem guarded_and {C : σ → α → Prop} {P : σ → Prop} {s : σ} {as : List α}
    (hg : Guarded step C s as)
    (ha : Always step P s as) :
    Guarded step (fun s a ↦ C s a ∧ P s ∧ ∀ t, step s a = some t → P t) s as := by
  induction as generalizing s with
  | nil => trivial
  | cons a as ih =>
    have hnext : ∀ t, step s a = some t → P t := fun t ht ↦ (ha.2 t ht).head
    exact ⟨⟨hg.1, ha.1, hnext⟩, fun t ht ↦ ih (hg.2 t ht) (ha.2 t ht)⟩

theorem Always.last {P : σ → Prop} {s t : σ} {as : List α} (h : Always step P s as)
    (he : exec step s as = some t) : P t := by
  induction as generalizing s with
  | nil =>
    cases he
    exact h
  | cons a as ih =>
    obtain ⟨u, hu, ht⟩ := exec_cons.mp he
    exact ih (h.2 u hu) ht

/-- Along a run whose actions meet `M`, when the condition is what keeps the invariant, and
leaving it breaks the property at once, the run keeps the property exactly when it keeps the
condition. -/
theorem Guarded.always_iff {I P : σ → Prop} {M C : σ → α → Prop}
    (hP : ∀ s, I s → P s) (hkeep : ∀ s a t, I s → M s a → C s a → step s a = some t → I t)
    (hbreak : ∀ s a, I s → M s a → ¬C s a → ∃ t, step s a = some t ∧ ¬P t)
    {s : σ} {as : List α} (hm : Guarded step M s as) (hs : I s) :
    Always step P s as ↔ Guarded step C s as := by
  induction as generalizing s with
  | nil => exact ⟨fun _ ↦ trivial, fun _ ↦ hP s hs⟩
  | cons a as ih =>
    obtain ⟨hM, hm⟩ := hm
    constructor
    · intro hx
      obtain ⟨-, hrest⟩ := hx
      have hC : C s a := by
        by_contra hC
        obtain ⟨t, ht, hnot⟩ := hbreak s a hs hM hC
        exact hnot (hrest t ht).head
      exact ⟨hC, fun t ht ↦ (ih (hm t ht) (hkeep s a t hs hM hC ht)).mp (hrest t ht)⟩
    · intro hx
      obtain ⟨hC, hrest⟩ := hx
      exact ⟨hP s hs, fun t ht ↦ (ih (hm t ht) (hkeep s a t hs hM hC ht)).mpr (hrest t ht)⟩

/-- When the condition is what keeps the invariant, and leaving it breaks the
property at once, a run keeps the property exactly when it keeps the condition. -/
theorem always_iff_guarded {I P : σ → Prop} {C : σ → α → Prop}
    (hP : ∀ s, I s → P s) (hkeep : ∀ s a t, I s → C s a → step s a = some t → I t)
    (hbreak : ∀ s a, I s → ¬C s a → ∃ t, step s a = some t ∧ ¬P t)
    {s : σ} (as : List α) (hs : I s) : Always step P s as ↔ Guarded step C s as := by
  have hm : Guarded step (fun _ _ ↦ True) s as := guarded_of_forall (fun _ _ ↦ trivial) s as
  refine hm.always_iff hP ?_ ?_ hs
  · intro s a t hs _
    exact hkeep s a t hs
  · intro s a hs _
    exact hbreak s a hs

/-- A run keeps the invariant and each of its actions meets `D` exactly when each meets the
condition, where leaving the condition breaks one of the two at once. -/
theorem always_and_guarded_iff {I : σ → Prop} {C D : σ → α → Prop}
    (hkeep : ∀ s a t, I s → C s a → step s a = some t → I t) (hD : ∀ s a, I s → C s a → D s a)
    (hbreak : ∀ s a, I s → ¬C s a → ¬D s a ∨ ∃ t, step s a = some t ∧ ¬I t)
    {s : σ} (as : List α) (hs : I s) :
    Always step I s as ∧ Guarded step D s as ↔ Guarded step C s as := by
  induction as generalizing s with
  | nil => exact ⟨fun _ ↦ trivial, fun _ ↦ ⟨hs, trivial⟩⟩
  | cons a as ih =>
    constructor
    · intro hx
      obtain ⟨⟨-, halways⟩, hd, hguarded⟩ := hx
      have hC : C s a := by
        by_contra hC
        rcases hbreak s a hs hC with hnot | ⟨t, ht, hnot⟩
        · exact hnot hd
        · exact hnot (halways t ht).head
      refine ⟨hC, fun t ht ↦ ?_⟩
      exact (ih (hkeep s a t hs hC ht)).mp ⟨halways t ht, hguarded t ht⟩
    · intro hx
      obtain ⟨hC, hrest⟩ := hx
      have hnext (t : σ) (ht : step s a = some t) := (ih (hkeep s a t hs hC ht)).mpr (hrest t ht)
      exact ⟨⟨hs, fun t ht ↦ (hnext t ht).1⟩, hD s a hs hC, fun t ht ↦ (hnext t ht).2⟩

/-- Two systems, one of which takes every step that the other does, end in related states. -/
theorem exec_related {τ : Type} {step' : τ → α → Option τ} {R : σ → τ → Prop}
    (hstep : ∀ s t a, R s t → ∃ s' t', step s a = some s' ∧ step' t a = some t' ∧ R s' t')
    {s : σ} {t : τ} (h : R s t) (as : List α) :
    ∃ s' t', exec step s as = some s' ∧ exec step' t as = some t' ∧ R s' t' := by
  induction as generalizing s t with
  | nil => exact ⟨s, t, rfl, rfl, h⟩
  | cons a as ih =>
    obtain ⟨s₁, t₁, hs, ht, h₁⟩ := hstep s t a h
    obtain ⟨s', t', hs', ht', h'⟩ := ih h₁
    exact ⟨s', t', exec_cons.mpr ⟨s₁, hs, hs'⟩, exec_cons.mpr ⟨t₁, ht, ht'⟩, h'⟩

/-- When one system follows each step of another, it follows the runs. -/
theorem exec_simulated {τ : Type} {step' : τ → α → Option τ} {R : σ → τ → Prop}
    (hstep : ∀ s t a s', R s t → step s a = some s' → ∃ t', step' t a = some t' ∧ R s' t')
    {s s' : σ} {t : τ} (h : R s t) {as : List α} (hs : exec step s as = some s') :
    ∃ t', exec step' t as = some t' ∧ R s' t' := by
  induction as generalizing s t with
  | nil =>
    obtain rfl := Option.some.inj hs
    exact ⟨t, rfl, h⟩
  | cons a as ih =>
    obtain ⟨s₁, hs₁, hs⟩ := exec_cons.mp hs
    obtain ⟨t₁, ht, h₁⟩ := hstep s t a s₁ h hs₁
    obtain ⟨t', ht', h'⟩ := ih h₁ hs
    exact ⟨t', exec_cons.mpr ⟨t₁, ht, ht'⟩, h'⟩

/-- Two conditions are the same along a run when they are where the invariant holds, which the
second one keeps. -/
theorem guarded_iff {I : σ → Prop} {C D : σ → α → Prop}
    (hkeep : ∀ s a t, I s → C s a → step s a = some t → I t) (h : ∀ s a, I s → (D s a ↔ C s a))
    {s : σ} (as : List α) (hs : I s) : Guarded step D s as ↔ Guarded step C s as := by
  induction as generalizing s with
  | nil => exact Iff.rfl
  | cons a as ih =>
    refine and_congr_left_iff.mpr ?_ |>.trans (and_congr_right fun hC ↦ ?_)
    · intro _
      exact h s a hs
    · exact forall₂_congr fun t ht ↦ ih (hkeep s a t hs hC ht)

/-- A relation between two runs, one of which leaves out some of the actions: it is enough that
an action that is left out keeps it, and that any other keeps it when both runs take it. -/
theorem related_foldl_filter {β : Type} {next : σ → β → σ} {R : σ → σ → Prop} {kept : β → Bool}
    (hleft : ∀ s s' b, R s s' → kept b = false → R (next s b) s')
    (hboth : ∀ s s' b, R s s' → kept b → R (next s b) (next s' b)) {s s' : σ} (h : R s s')
    (bs : List β) : R (bs.foldl next s) ((bs.filter kept).foldl next s') := by
  induction bs generalizing s s' with
  | nil => exact h
  | cons b bs ih =>
    cases hb : kept b with
    | false =>
      rw [List.filter_cons_of_neg (by simp [hb])]
      exact ih (hleft s s' b h hb)
    | true =>
      rw [List.filter_cons_of_pos hb]
      exact ih (hboth s s' b h hb)

end CronPanel.Library.Run
