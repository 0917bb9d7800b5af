import Mathlib.Data.List.Basic
import Mathlib.Data.List.Forall2

namespace CronPanel.Library.Fallible

variable {ε α β : Type}

theorem bind_eq_ok {x : Except ε α} {f : α → Except ε β} {b : β} :
    x >>= f = .ok b ↔ ∃ a, x = .ok a ∧ f a = .ok b := by
  cases x with
  | error e =>
    change Except.error e = Except.ok b ↔ _
    simp
  | ok a =>
    change f a = Except.ok b ↔ _
    simp

theorem map_eq_ok {x : Except ε α} {f : α → β} {b : β} :
    f <$> x = .ok b ↔ ∃ a, x = .ok a ∧ f a = b := by
  cases x with
  | error e =>
    change Except.error e = Except.ok b ↔ _
    simp
  | ok a =>
    change Except.ok (f a) = Except.ok b ↔ _
    simp

theorem mapError_eq_ok {ε' : Type} {x : Except ε α} {f : ε → ε'} {a : α} :
    x.mapError f = .ok a ↔ x = .ok a := by
  cases x <;> simp [Except.mapError]

theorem toOption_eq_some {x : Except ε α} {a : α} : x.toOption = some a ↔ x = .ok a := by
  cases x <;> simp [Except.toOption]

@[simp] theorem ok_bind (a : α) (f : α → Except ε β) : (Except.ok a >>= f) = f a := rfl

@[simp] theorem map_ok (a : α) (f : α → β) : (f <$> (Except.ok a : Except ε α)) = .ok (f a) := rfl

theorem mapM_eq_ok {f : α → Except ε β} {as : List α} {bs : List β} :
    as.mapM f = .ok bs ↔ List.Forall₂ (fun a b ↦ f a = .ok b) as bs := by
  induction as generalizing bs with
  | nil =>
    rw [List.mapM_nil, List.forall₂_nil_left_iff]
    exact ⟨fun h ↦ (Except.ok.inj h).symm, fun h ↦ h ▸ rfl⟩
  | cons a as ih =>
    simp only [List.mapM_cons, bind_eq_ok, ih, List.forall₂_cons_left_iff]
    constructor
    · intro hin
      obtain ⟨b, hb, cs, hcs, h⟩ := hin
      exact ⟨b, cs, hb, hcs, (Except.ok.inj h).symm⟩
    · intro hin
      obtain ⟨b, cs, hb, hcs, rfl⟩ := hin
      exact ⟨b, hb, cs, hcs, rfl⟩

theorem exists_of_mapM {f : α → Except ε β} {as : List α} {bs : List β} (h : as.mapM f = .ok bs)
    {b : β} (hb : b ∈ bs) : ∃ a ∈ as, f a = .ok b := by
  have hall := mapM_eq_ok.mp h
  induction hall with
  | nil => cases hb
  | cons hab hrest ih =>
    rcases List.mem_cons.mp hb with rfl | hb
    · exact ⟨_, List.mem_cons_self, hab⟩
    · obtain ⟨a, ha, hf⟩ := ih (mapM_eq_ok.mpr hrest) hb
      exact ⟨a, List.mem_cons_of_mem _ ha, hf⟩

theorem mapM_ok {f : α → Except ε β} {g : α → β} {as : List α} (h : ∀ a ∈ as, f a = .ok (g a)) :
    as.mapM f = .ok (as.map g) := by
  rw [mapM_eq_ok, List.forall₂_map_right_iff, List.forall₂_same]
  exact h

def Succeeds (x : Except ε α) : Prop := ∃ a, x = .ok a

@[simp] theorem succeeds_ok (a : α) : Succeeds (Except.ok a : Except ε α) := ⟨a, rfl⟩

@[simp] theorem not_succeeds_error (e : ε) :
    ¬Succeeds (Except.error e : Except ε α) := fun ⟨_, h⟩ ↦ by
  cases h

theorem Succeeds.bind {x : Except ε α} {f : α → Except ε β} (hx : Succeeds x)
    (hf : ∀ a, x = .ok a → Succeeds (f a)) : Succeeds (x >>= f) := by
  obtain ⟨a, rfl⟩ := hx
  exact hf a rfl

theorem succeeds_mapM {f : α → Except ε β} {as : List α} (h : ∀ a ∈ as, Succeeds (f a)) :
    Succeeds (as.mapM f) := by
  induction as with
  | nil => exact ⟨[], List.mapM_nil⟩
  | cons a as ih =>
    rw [List.mapM_cons]
    refine (h a List.mem_cons_self).bind fun b _ ↦ ?_
    exact (ih fun c hc ↦ h c (List.mem_cons_of_mem _ hc)).bind fun _ _ ↦ ⟨_, rfl⟩

theorem succeeds_mapM_iff {f : α → Except ε β} {as : List α} :
    Succeeds (as.mapM f) ↔ ∀ a ∈ as, Succeeds (f a) := by
  refine ⟨fun h ↦ ?_, succeeds_mapM⟩
  induction as with
  | nil => exact List.forall_mem_nil _
  | cons a as ih =>
    obtain ⟨bs, hbs⟩ := h
    rw [List.mapM_cons] at hbs
    obtain ⟨b, hb, hbs⟩ := bind_eq_ok.mp hbs
    obtain ⟨cs, hcs, -⟩ := bind_eq_ok.mp hbs
    exact List.forall_mem_cons.mpr ⟨⟨b, hb⟩, ih ⟨cs, hcs⟩⟩

theorem succeeds_bind_ok {x : Except ε α} {f : α → β} :
    Succeeds (x >>= fun a ↦ .ok (f a)) ↔ Succeeds x := by
  cases x with
  | error e => exact iff_of_false (not_succeeds_error e) (not_succeeds_error e)
  | ok a => exact iff_of_true ⟨f a, rfl⟩ ⟨a, rfl⟩

theorem mapM_error {f : α → Except ε β} {e : ε} {as : List α}
    (herr : ∀ a ∈ as, ∀ e', f a = .error e' → e' = e) (hbad : ∃ a ∈ as, ¬Succeeds (f a)) :
    as.mapM f = .error e := by
  induction as with
  | nil =>
    obtain ⟨a, ha, -⟩ := hbad
    cases ha
  | cons a as ih =>
    rw [List.mapM_cons]
    cases ha : f a with
    | error e' =>
      rw [herr a List.mem_cons_self e' ha]
      rfl
    | ok b =>
      rw [ok_bind, ih fun c hc ↦ herr c (List.mem_cons_of_mem _ hc)]
      · rfl
      · obtain ⟨c, hc, hfail⟩ := hbad
        rcases List.mem_cons.mp hc with rfl | hc
        · exact absurd ⟨b, ha⟩ hfail
        · exact ⟨c, hc, hfail⟩

/-- Two computations fail together, in errors that are related, or answer together. -/
inductive Agree {ε' β : Type} (E : ε → ε' → Prop) (R : α → β → Prop) :
    Except ε α → Except ε' β → Prop
  | ok {a : α} {b : β} (h : R a b) : Agree E R (.ok a) (.ok b)
  | error {e : ε} {e' : ε'} (h : E e e') : Agree E R (.error e) (.error e')

section Agree

variable {ε' α' β' : Type} {E : ε → ε' → Prop} {R : α → α' → Prop} {S : β → β' → Prop}

theorem Agree.bind {x : Except ε α} {y : Except ε' α'} {f : α → Except ε β} {g : α' → Except ε' β'}
    (h : Agree E R x y) (hf : ∀ a b, R a b → Agree E S (f a) (g b)) :
    Agree E S (x >>= f) (y >>= g) := by
  cases h with
  | ok hab => exact hf _ _ hab
  | error he => exact .error he

theorem Agree.attach {x : Except ε α} {y : Except ε' α'} (h : Agree E R x y) :
    Agree E (fun a b ↦ x = .ok a ∧ y = .ok b ∧ R a b) x y := by
  cases h with
  | ok hab => exact .ok ⟨rfl, rfl, hab⟩
  | error he => exact .error he

theorem Agree.of_ok {x : Except ε α} {y : Except ε' α'} {a : α} {b : α'} (h : Agree E R x y)
    (hx : x = .ok a) (hy : y = .ok b) : R a b := by
  subst hx hy
  cases h with
  | ok hab => exact hab

theorem Agree.refl {E : ε → ε → Prop} {R : α → α → Prop} (hE : ∀ e, E e e) (hR : ∀ a, R a a)
    (x : Except ε α) : Agree E R x x := by
  cases x with
  | error e => exact .error (hE e)
  | ok a => exact .ok (hR a)

theorem Agree.same (x : Except ε α) : Agree Eq Eq x x := .refl (fun _ ↦ rfl) (fun _ ↦ rfl) x

theorem Agree.ite {c c' : Prop} [Decidable c] [Decidable c'] {x x' : Except ε α}
    {y y' : Except ε' α'}
    (hc : c ↔ c') (ht : c → Agree E R x y) (he : ¬c → Agree E R x' y') :
    Agree E R (if c then x else x') (if c' then y else y') := by
  by_cases h : c
  · rw [if_pos h, if_pos (hc.mp h)]
    exact ht h
  · rw [if_neg h, if_neg (mt hc.mpr h)]
    exact he h

theorem Agree.map {x : Except ε α} {y : Except ε' α'} {f : α → β} {g : α' → β'} (h : Agree E R x y)
    (hf : ∀ a b, R a b → S (f a) (g b)) : Agree E S (f <$> x) (g <$> y) := by
  cases h with
  | ok hab => exact .ok (hf _ _ hab)
  | error he => exact .error he

theorem Agree.mapError {ε₁ ε₂ : Type} {E' : ε₁ → ε₂ → Prop} {x : Except ε α} {y : Except ε' α'}
    {f : ε → ε₁} {g : ε' → ε₂} (h : Agree E R x y) (hf : ∀ e e', E e e' → E' (f e) (g e')) :
    Agree E' R (x.mapError f) (y.mapError g) := by
  cases h with
  | ok hab => exact .ok hab
  | error he => exact .error (hf _ _ he)

theorem Agree.eq_map {x : Except ε α} {y : Except ε β} {f : α → β}
    (h : Agree Eq (fun a b ↦ b = f a) x y) : y = f <$> x := by
  cases h with
  | ok hab => exact congrArg Except.ok hab
  | error he => exact congrArg Except.error he.symm

theorem Agree.getD {x : Except ε α} {y : Except ε' α'} {a : α} {b : α'} (h : Agree E R x y)
    (hab : R a b) :
    R (x.toOption.getD a) (y.toOption.getD b) := by
  cases h with
  | ok h => exact h
  | error _ => exact hab

end Agree

end CronPanel.Library.Fallible
