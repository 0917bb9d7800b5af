import CronPanel.Cron.Documented

namespace CronPanel.Cron.Meaning

open Library.Strings Library.Fallible Validator Tokens Documented

instance (τ : Token) : Decidable (SteppedSingle τ) := by
  unfold SteppedSingle
  split <;> infer_instance

def stride (τ : Token) : ℕ := τ.step.elim 1 Numeral.value

/-- The standard set of values of a token; in the day of week 7 is read as 0. -/
def standard (f : Field) (τ : Token) : Finset ℕ :=
  match τ.base with
  | .any => f.allowed.filter (fun v ↦ stride τ ∣ v - f.first)
  | .single n => {normalizeBound f n.value}
  | .range a b =>
    ((Finset.Icc a.value b.value).filter (fun v ↦ stride τ ∣ v - a.value)).image (normalizeBound f)

def union (f : Field) (τs : List Token) : Finset ℕ :=
  τs.foldr (fun τ values ↦ standard f τ ∪ values) ∅

/-- The values of a field's text, when its tokens have the standard forms. -/
def fieldMeaning (f : Field) (w : Text) : Option (Finset ℕ) :=
  match (w.splitOn ',').mapM Token.read? with
  | none => none
  | some τs => if ∃ τ ∈ τs, SteppedSingle τ then none else some (union f τs)

def meaning (ws : List Text) : List (Option (Finset ℕ)) := List.zipWith fieldMeaning Field.names ws

theorem mem_union {f : Field} {τs : List Token} {v : ℕ} :
    v ∈ union f τs ↔ ∃ τ ∈ τs, v ∈ standard f τ := by
  induction τs with
  | nil => simp [union]
  | cons τ τs ih =>
    have hcons : union f (τ :: τs) = standard f τ ∪ union f τs := rfl
    simp [hcons, ih]

theorem mem_union_rewrite {f : Field} {τs : List Token} {v : ℕ} :
    v ∈ union f (τs.map (rewrite f)) ↔ ∃ τ ∈ τs, v ∈ standard f (rewrite f τ) := by
  simp [mem_union]

theorem read?_texts (τs : List Token) : (τs.map Token.text).mapM Token.read? = some τs := by
  induction τs with
  | nil => rfl
  | cons τ τs ih =>
    have hread : Token.read? τ.text = some τ := Token.read?_eq_some.mpr rfl
    simp [ih, hread]

theorem fieldMeaning_listText {f : Field} {τs : List Token} (hne : τs ≠ []) :
    fieldMeaning f (listText τs) = if ∃ τ ∈ τs, SteppedSingle τ then none
      else some (union f τs) := by
  rw [fieldMeaning, splitOn_listText hne, read?_texts]

section Weekdays

/-- The days that `0-7` stands for and `0-0`, its rewritten form, does not. -/
def Lost (τ : Token) (v : ℕ) : Prop :=
  match τ.base with
  | .range a b => a.value = 0 ∧ b.value = 7 ∧ 1 ≤ v ∧ v ≤ 6 ∧ stride τ ∣ v
  | _ => False

/-- The days that `0-M` stands for where `7-M`, an inverted range, was written. -/
def Gained (τ : Token) (v : ℕ) : Prop :=
  match τ.base with
  | .range a b => a.value = 7 ∧ b.value < 7 ∧ v ≤ b.value ∧ stride τ ∣ v
  | _ => False

/-- What a range loses or gains is made up for by the other tokens of its list. -/
def Covered (τs : List Token) : Prop :=
  (∀ τ ∈ τs, ∀ v, Lost τ v → ∃ υ ∈ τs, Gained υ v ∨ v ∈ standard .dayOfWeek υ ∧ ¬Lost υ v) ∧
    ∀ τ ∈ τs, ∀ v, Gained τ v → ∃ υ ∈ τs, v ∈ standard .dayOfWeek υ

variable {f : Field} {τ : Token}

theorem normalizeBound_other (hf : f ≠ .dayOfWeek) (v : ℕ) : normalizeBound f v = v :=
  if_neg fun h ↦ hf h.1

theorem steppedSingle_rewrite : SteppedSingle (rewrite f τ) ↔ SteppedSingle τ := by
  obtain ⟨base, step⟩ := τ
  cases base <;> rfl

theorem mem_standard_range {a b : Numeral} {s : Option Numeral} {v : ℕ} :
    v ∈ standard f ⟨.range a b, s⟩ ↔ ∃ u, (a.value ≤ u ∧ u ≤ b.value) ∧
      stride ⟨.range a b, s⟩ ∣ u - a.value ∧ normalizeBound f u = v := by
  simp only [standard, Finset.mem_image, Finset.mem_filter, Finset.mem_Icc, and_assoc]

theorem standard_rewrite_other (hf : f ≠ .dayOfWeek) (τ : Token) :
    standard f (rewrite f τ) = standard f τ := by
  obtain ⟨base, step⟩ := τ
  cases base with
  | any => rfl
  | single n => simp [standard, rewrite, rewriteShape, normalizeBound_other hf]
  | range a b =>
    ext v
    simp only [rewrite, rewriteShape, mem_standard_range, Numeral.value_ofNat,
      normalizeBound_other hf, stride]

theorem normalizeBound_lt {v : ℕ} (h : v < 7) : normalizeBound .dayOfWeek v = v := by
  apply if_neg
  intro hx
  omega

/-- The values between the two ends, before and after 7 is collapsed in each of them. -/
theorem collapsed_range {a b s v : ℕ} (ha : a ≤ 7) (hb : b ≤ 7)
    (hle : normalizeBound .dayOfWeek a ≤ normalizeBound .dayOfWeek b) :
    (∃ u, (normalizeBound .dayOfWeek a ≤ u ∧ u ≤ normalizeBound .dayOfWeek b) ∧
        s ∣ u - normalizeBound .dayOfWeek a ∧ normalizeBound .dayOfWeek u = v) ↔
      (a = 7 ∧ b < 7 ∧ v ≤ b ∧ s ∣ v) ∨
        (∃ u, (a ≤ u ∧ u ≤ b) ∧ s ∣ u - a ∧ normalizeBound .dayOfWeek u = v) ∧
          ¬(a = 0 ∧ b = 7 ∧ 1 ≤ v ∧ v ≤ 6 ∧ s ∣ v) := by
  have hseven : normalizeBound .dayOfWeek 7 = 0 := rfl
  rcases Nat.lt_or_eq_of_le ha with ha | rfl
  · rcases Nat.lt_or_eq_of_le hb with hb | rfl
    · have hnot : ¬(a = 7 ∧ b < 7 ∧ v ≤ b ∧ s ∣ v) := by omega
      have hnone : ¬(a = 0 ∧ b = 7 ∧ 1 ≤ v ∧ v ≤ 6 ∧ s ∣ v) := by omega
      simp only [normalizeBound_lt ha, normalizeBound_lt hb, hnot, hnone, false_or,
        not_false_eq_true, and_true]
    · rw [hseven, normalizeBound_lt ha] at hle ⊢
      obtain rfl : a = 0 := Nat.le_zero.mp hle
      constructor
      · intro h
        obtain ⟨u, ⟨-, hu⟩, hs, rfl⟩ := h
        obtain rfl : u = 0 := Nat.le_zero.mp hu
        refine .inr ⟨⟨0, ⟨Nat.le_refl 0, Nat.zero_le 7⟩, hs, rfl⟩, ?_⟩
        intro hx
        exact absurd hx.2.2.1 (by decide)
      · intro h
        obtain ⟨⟨u, ⟨-, hu⟩, hs, rfl⟩, hkept⟩ := h.resolve_left (by omega)
        have hzero : normalizeBound .dayOfWeek u = 0 := by
          rcases Nat.lt_or_eq_of_le hu with hlt | rfl
          · rw [normalizeBound_lt hlt] at hkept ⊢
            rw [Nat.sub_zero] at hs
            by_contra hpos
            exact hkept ⟨rfl, rfl, by omega, by omega, hs⟩
          · rfl
        exact ⟨0, ⟨Nat.le_refl 0, Nat.le_refl 0⟩, Nat.dvd_zero s, hzero.symm⟩
  · rw [hseven]
    rcases Nat.lt_or_eq_of_le hb with hb | rfl
    · have hnone : ¬∃ u, (7 ≤ u ∧ u ≤ b) ∧ s ∣ u - 7 ∧ normalizeBound .dayOfWeek u = v := by
        intro h
        obtain ⟨u, hu, -, -⟩ := h
        omega
      rw [normalizeBound_lt hb]
      constructor
      · intro h
        obtain ⟨u, ⟨-, hu⟩, hs, rfl⟩ := h
        rw [normalizeBound_lt (Nat.lt_of_le_of_lt hu hb)]
        exact .inl ⟨rfl, hb, hu, hs⟩
      · intro h
        obtain ⟨-, -, hv, hs⟩ := h.resolve_right fun hx ↦ hnone hx.1
        exact ⟨v, ⟨Nat.zero_le v, hv⟩, hs, normalizeBound_lt (Nat.lt_of_le_of_lt hv hb)⟩
    · rw [hseven]
      constructor
      · intro h
        obtain ⟨u, ⟨-, hu⟩, -, rfl⟩ := h
        obtain rfl : u = 0 := Nat.le_zero.mp hu
        refine .inr ⟨⟨7, ⟨Nat.le_refl 7, Nat.le_refl 7⟩, Nat.dvd_zero s, rfl⟩, ?_⟩
        omega
      · intro h
        obtain ⟨⟨u, hu, -, rfl⟩, -⟩ := h.resolve_left (by omega)
        obtain rfl : u = 7 := Nat.le_antisymm hu.2 hu.1
        exact ⟨0, ⟨Nat.le_refl 0, Nat.le_refl 0⟩, Nat.dvd_zero s, rfl⟩

theorem mem_standard_rewrite (hτ : Admitted .dayOfWeek τ) (v : ℕ) :
    v ∈ standard .dayOfWeek (rewrite .dayOfWeek τ) ↔
      Gained τ v ∨ v ∈ standard .dayOfWeek τ ∧ ¬Lost τ v := by
  obtain ⟨base, step⟩ := τ
  obtain ⟨hstep, hbase⟩ := hτ
  cases base with
  | any => simp [Gained, Lost, rewrite, rewriteShape]
  | single n =>
    have hn : n.value ≤ 7 := hbase.2.2
    have htwice : normalizeBound .dayOfWeek (normalizeBound .dayOfWeek n.value) =
        normalizeBound .dayOfWeek n.value := by
      simp only [normalizeBound, true_and]
      split_ifs <;> omega
    simp [Gained, Lost, standard, rewrite, rewriteShape, htwice]
  | range a b =>
    obtain ⟨⟨-, -, ha⟩, ⟨-, -, hb⟩, hle⟩ := hbase
    simp only [rewrite, rewriteShape, mem_standard_range, Numeral.value_ofNat, Gained, Lost, stride]
    exact collapsed_range ha hb hle

theorem standard_of_lost {v : ℕ} (h : Lost τ v) : v ∈ standard .dayOfWeek τ := by
  obtain ⟨base, step⟩ := τ
  cases base with
  | any => cases h
  | single n => cases h
  | range a b =>
    obtain ⟨ha, hb, hlow, hhigh, hs⟩ := h
    rw [mem_standard_range, ha, hb]
    exact ⟨v, ⟨Nat.zero_le v, by omega⟩, hs, normalizeBound_lt (by omega)⟩

/-- Collapsing 7 keeps a list of weekdays as it is exactly when what is lost and gained is covered. -/
theorem union_rewrite_iff {τs : List Token} (h : ∀ τ ∈ τs, Admitted .dayOfWeek τ) :
    union .dayOfWeek (τs.map (rewrite .dayOfWeek)) = union .dayOfWeek τs ↔ Covered τs := by
  have hmem : ∀ v, v ∈ union .dayOfWeek (τs.map (rewrite .dayOfWeek)) ↔
      ∃ τ ∈ τs, Gained τ v ∨ v ∈ standard .dayOfWeek τ ∧ ¬Lost τ v := by
    intro v
    rw [mem_union_rewrite]
    exact exists_congr fun τ ↦ and_congr_right fun hτ ↦ mem_standard_rewrite (h τ hτ) v
  rw [Finset.ext_iff]
  simp only [hmem, mem_union]
  constructor
  · intro hall
    constructor
    · intro τ hτ v hlost
      exact (hall v).mpr ⟨τ, hτ, standard_of_lost hlost⟩
    · intro τ hτ v hgained
      exact (hall v).mp ⟨τ, hτ, .inl hgained⟩
  · intro hcov v
    constructor
    · intro hin
      obtain ⟨τ, hτ, hgained | ⟨hv, -⟩⟩ := hin
      · exact hcov.2 τ hτ v hgained
      · exact ⟨τ, hτ, hv⟩
    · intro hin
      obtain ⟨τ, hτ, hv⟩ := hin
      by_cases hlost : Lost τ v
      · exact hcov.1 τ hτ v hlost
      · exact ⟨τ, hτ, .inr ⟨hv, hlost⟩⟩

end Weekdays

theorem meaning_words (x : Expression) : meaning x.words =
    Field.names.map fun f ↦ if ∃ τ ∈ x.tokens f, SteppedSingle τ then none
      else some (union f (x.tokens f)) := by
  have hzip :
      meaning x.words = Field.names.map fun f ↦ fieldMeaning f (listText (x.tokens f)) := rfl
  rw [hzip]
  exact List.map_congr_left fun f _ ↦ fieldMeaning_listText (x.nonempty f)

def rewritten (x : Expression) : Expression where
  tokens f := (x.tokens f).map (rewrite f)
  nonempty f := by simpa using x.nonempty f

/-- Where every token has a standard form, the normalized expression means what was
written exactly when the weekday ranges `0-7` and `7-M` are covered. -/
theorem normalized_meaning_iff {e : Text} {fields : List Text}
    (h : parseCronExpression (some e) = .ok fields) (hforms : none ∉ meaning (split e)) :
    meaning fields = meaning (split e) ↔ ∀ x : Expression, x.Reads e →
      Covered (x.tokens .dayOfWeek) := by
  obtain ⟨x, hx, hadm, rfl⟩ := parse_eq_ok.mp h
  have hplain : ∀ f, ¬∃ τ ∈ x.tokens f, SteppedSingle τ := by
    intro f hstepped
    apply hforms
    rw [show split e = x.words from hx, meaning_words]
    exact List.mem_map.mpr ⟨f, f.mem_names, if_pos hstepped⟩
  have hplain' : ∀ f, ¬∃ τ ∈ (rewritten x).tokens f, SteppedSingle τ := by
    intro f hstepped
    obtain ⟨υ, hυ, hs⟩ := hstepped
    obtain ⟨τ, hτ, rfl⟩ := List.mem_map.mp hυ
    exact hplain f ⟨τ, hτ, steppedSingle_rewrite.mp hs⟩
  have hraw : meaning (split e) = Field.names.map fun f ↦ some (union f (x.tokens f)) := by
    rw [show split e = x.words from hx, meaning_words]
    exact List.map_congr_left fun f _ ↦ if_neg (hplain f)
  have hnorm : meaning (rewritten x).words =
      Field.names.map fun f ↦ some (union f ((x.tokens f).map (rewrite f))) := by
    rw [meaning_words]
    exact List.map_congr_left fun f _ ↦ if_neg (hplain' f)
  have hother :
      ∀ f, f ≠ .dayOfWeek → union f ((x.tokens f).map (rewrite f)) = union f (x.tokens f) := by
    intro f hf
    ext v
    rw [mem_union_rewrite, mem_union]
    simp only [standard_rewrite_other hf]
  have hone :
      (∀ y : Expression, y.Reads e → Covered (y.tokens .dayOfWeek)) ↔
      Covered (x.tokens .dayOfWeek) := by
    constructor
    · exact fun hall ↦ hall x hx
    · intro hcov y hy
      exact hy.unique hx ▸ hcov
  rw [show (Field.names.map fun f ↦ listText ((x.tokens f).map (rewrite f))) =
    (rewritten x).words from rfl,
    hnorm, hraw, List.map_inj_left, hone, ← union_rewrite_iff (hadm .dayOfWeek).1]
  constructor
  · intro hall
    exact Option.some.inj (hall .dayOfWeek (Field.mem_names _))
  · intro hdow f _
    by_cases hf : f = .dayOfWeek
    · obtain rfl := hf
      exact congrArg some hdow
    · exact congrArg some (hother f hf)

theorem sunday_twice_keeps_meaning :
    (meaning ["0".toList, "2".toList, ['*'], ['*'], "0".toList] = meaning (split "0 2 * * 7".toList) ↔
      ∀ x : Expression, x.Reads "0 2 * * 7".toList → Covered (x.tokens .dayOfWeek)) :=
  normalized_meaning_iff (by decide) (by decide)

theorem whole_week_becomes_sunday :
    ¬∀ e : Text, ∀ fields, parseCronExpression (some e) = .ok fields → none ∉ meaning (split e) →
      meaning fields = meaning (split e) := by
  intro hall
  have hsame := hall "0 0 * * 0-7".toList ["0".toList, "0".toList, ['*'], ['*'], "0-0".toList]
    (by decide) (by decide)
  revert hsame
  decide

end CronPanel.Cron.Meaning
