import CronPanel.Cron.Meaning

namespace CronPanel.Cron.Expansion

open Library.Strings Library.Ranges Library.Fallible Validator Grammar Tokens Documented Meaning

/-- The values of a token as `_expand_token` finds them: the steps over a star count from zero. -/
def expanded (f : Field) (τ : Token) : Finset ℕ :=
  match τ.base with
  | .any => f.allowed.filter (fun v ↦ stride τ ∣ v)
  | .single n => {normalizeBound f n.value}
  | .range a b => (Finset.Icc (normalizeBound f a.value) (normalizeBound f b.value)).filter
      (fun v ↦ stride τ ∣ v - normalizeBound f a.value)

/-- One of the standard forms, with numbers among the effective values of the field. -/
def Effective (f : Field) (τ : Token) : Prop :=
  ¬SteppedSingle τ ∧ match τ.base with
    | .any => True
    | .single n => n.value ∈ f.allowed
    | .range a b => a.value ∈ f.allowed ∧ b.value ∈ f.allowed

/-- In a field that starts at one, what a step over a star gives when it is counted from one, and
when it is counted from zero, is in the list either way. -/
def OriginCovered (f : Field) (τs : List Token) : Prop :=
  0 < f.first → ∀ τ ∈ τs, τ.base = .any → ∀ v ∈ f.allowed,
    (stride τ ∣ v - f.first → ∃ υ ∈ τs, v ∈ expanded f υ) ∧
    (stride τ ∣ v → ∃ υ ∈ τs, v ∈ standard f υ)

variable {f : Field} {τ : Token} {τs : List Token}

theorem expandToken_of_admitted (h : Admitted f τ) :
    expandToken τ.text f = .ok (expanded f τ) := by
  by_cases hstar : τ.text = starText
  · obtain rfl : τ = ⟨.any, none⟩ := Token.text_injective hstar
    simp [expandToken, hstar, expanded, stride]
  · obtain ⟨base, step⟩ := τ
    obtain ⟨hs, hb⟩ := h
    rw [expandToken, if_neg hstar, splitStep_of_admitted hs, ok_bind]
    cases base with
    | any =>
      cases step with
      | none => exact absurd rfl hstar
      | some s =>
        have hpos : 0 < s.value := (hs s rfl).2
        exact congrArg Except.ok (Finset.ext fun v ↦ mem_multiples hpos)
    | single n =>
      have hne : n.text ≠ starText := ne_star_of_isDigits n.digits
      have hn : single n.text f = .ok (normalizeBound f n.value) :=
        single_eq_ok.mpr ⟨n, rfl, hb.1, hb.2, rfl⟩
      simp only [Shape.text, if_neg hne, if_neg (n.not_mem_text (c := '-') rfl), hn, ok_bind]
      rfl
    | range a b =>
      obtain ⟨⟨hla, hba⟩, ⟨hlb, hbb⟩, hle⟩ := hb
      obtain ⟨hm, hpart, hnil⟩ := range_parts a b
      have ha : single a.text f = .ok (normalizeBound f a.value) :=
        single_eq_ok.mpr ⟨a, rfl, hla, hba, rfl⟩
      have hb : single b.text f = .ok (normalizeBound f b.value) :=
        single_eq_ok.mpr ⟨b, rfl, hlb, hbb, rfl⟩
      simp only [if_neg (Shape.text_ne_star_range a b), if_pos hm, hpart, if_neg hnil, ha, hb,
        ok_bind, if_neg (Nat.not_lt.mpr hle)]
      cases step with
      | none => simp [expanded, stride]
      | some s => simp only [Option.map_some, expanded, stride, Option.elim_some,
          Nat.dvd_iff_mod_eq_zero]

theorem expandTokens_of_admitted (h : ∀ τ ∈ τs, Admitted f τ) :
    expandTokens (τs.map Token.text) f =
      .ok (τs.foldl (fun values τ ↦ values ∪ expanded f τ) ∅) := by
  have hgo : ∀ w : Finset ℕ, (τs.map Token.text).foldlM
      (fun values part ↦ (values ∪ ·) <$> expandToken part f) w =
        .ok (τs.foldl (fun values τ ↦ values ∪ expanded f τ) w) := by
    induction τs with
    | nil => exact fun w ↦ rfl
    | cons τ τs ih =>
      intro w
      have hτ := expandToken_of_admitted (h τ List.mem_cons_self)
      rw [List.map_cons, List.foldlM_cons, hτ, map_ok, ok_bind]
      exact ih (fun υ hυ ↦ h υ (List.mem_cons_of_mem τ hυ)) _
  exact hgo ∅

theorem strip_tokenText (τ : Token) : strip τ.text = τ.text := by
  have hpattern := tokenPattern_text τ
  simp only [tokenPattern, Bool.and_eq_true, List.all_eq_true] at hpattern
  apply strip_of_forall
  intro c hc
  have hplain := hpattern.2 c hc
  simp only [Bool.or_eq_true, beq_iff_eq] at hplain
  rcases hplain with (((hdigit | rfl) | rfl) | rfl) | rfl
  · exact isSpace_of_isDigit hdigit
  all_goals rfl

/-- What `expand_cron_field` gives for a list of admitted tokens as it is written. -/
theorem expandCronField_of_admitted (hne : τs ≠ []) (h : ∀ τ ∈ τs, Admitted f τ) :
    ∃ w : Finset ℕ, expandCronField f (listText τs) = .ok (sorted w) ∧
      ∀ v, v ∈ w ↔ ∃ τ ∈ τs, v ∈ expanded f τ := by
  refine ⟨τs.foldl (fun values τ ↦ values ∪ expanded f τ) ∅, ?_, ?_⟩
  · have hstrip : τs.map (strip ∘ Token.text) = τs.map Token.text :=
      List.map_congr_left fun τ _ ↦ strip_tokenText τ
    rw [expandCronField, splitOn_listText hne, List.map_map, hstrip, expandTokens_of_admitted h,
      map_ok]
  · intro v
    rw [mem_foldl_union]
    simp

theorem expanded_eq_standard (hτ : Effective f τ) (h : τ.base = .any → f.first = 0) :
    expanded f τ = standard f τ := by
  obtain ⟨base, step⟩ := τ
  obtain ⟨-, hb⟩ := hτ
  cases base with
  | any => simp [expanded, standard, h rfl]
  | single n => rfl
  | range a b =>
    obtain ⟨ha, hb⟩ := hb
    have hid : ∀ v ∈ (Finset.Icc a.value b.value).filter
        (fun v ↦ stride ⟨.range a b, step⟩ ∣ v - a.value), normalizeBound f v = v := by
      intro v hv
      obtain ⟨hlow, hhigh⟩ := Finset.mem_Icc.mp (Finset.mem_filter.mp hv).1
      rw [Field.mem_allowed] at ha hb
      exact normalizeBound_of_mem (Field.mem_allowed.mpr ⟨ha.1.trans hlow, hhigh.trans hb.2⟩)
    simp only [expanded, standard, normalizeBound_of_mem ha, normalizeBound_of_mem hb]
    rw [Finset.image_congr hid]
    exact Finset.image_id.symm

/-- The expansion of a list is the union of the standard values of its tokens exactly when what
depends on the origin of its steps is covered. -/
theorem expanded_iff_standard_iff (h : ∀ τ ∈ τs, Effective f τ) :
    (∀ v, (∃ τ ∈ τs, v ∈ expanded f τ) ↔ ∃ τ ∈ τs, v ∈ standard f τ) ↔ OriginCovered f τs := by
  constructor
  · intro hall _ τ hτ hany v hv
    obtain ⟨base, step⟩ := τ
    obtain rfl : base = .any := hany
    constructor
    · intro hdvd
      exact (hall v).mpr ⟨_, hτ, Finset.mem_filter.mpr ⟨hv, hdvd⟩⟩
    · intro hdvd
      exact (hall v).mp ⟨_, hτ, Finset.mem_filter.mpr ⟨hv, hdvd⟩⟩
  · intro hcov v
    by_cases hfirst : f.first = 0
    · refine exists_congr fun τ ↦ and_congr_right fun hτ ↦ ?_
      rw [expanded_eq_standard (h τ hτ) fun _ ↦ hfirst]
    · have hpos : 0 < f.first := Nat.pos_of_ne_zero hfirst
      constructor
      · intro hin
        obtain ⟨τ, hτ, hv⟩ := hin
        by_cases hany : τ.base = .any
        · obtain ⟨base, step⟩ := τ
          obtain rfl : base = .any := hany
          obtain ⟨hmem, hdvd⟩ := Finset.mem_filter.mp hv
          exact (hcov hpos _ hτ rfl v hmem).2 hdvd
        · exact ⟨τ, hτ, expanded_eq_standard (h τ hτ) (absurd · hany) ▸ hv⟩
      · intro hin
        obtain ⟨τ, hτ, hv⟩ := hin
        by_cases hany : τ.base = .any
        · obtain ⟨base, step⟩ := τ
          obtain rfl : base = .any := hany
          obtain ⟨hmem, hdvd⟩ := Finset.mem_filter.mp hv
          exact (hcov hpos _ hτ rfl v hmem).1 hdvd
        · exact ⟨τ, hτ, (expanded_eq_standard (h τ hτ) (absurd · hany)).symm ▸ hv⟩

/-- The expander gives, in order and once each, the standard values of the tokens of a field. -/
def ExpandsStandard (f : Field) (τs : List Token) : Prop :=
  ∃ vs, expandCronField f (listText τs) = .ok vs ∧ vs.Pairwise (· < ·) ∧
    ∀ v, v ∈ vs ↔ v ∈ union f τs

/-- The expander computes the standard meaning of the tokens of an accepted expression exactly
when what depends on the origin of their steps is covered. -/
theorem expands_standard_iff {e : Text} {fields : List Text} {x : Expression}
    (h : parseCronExpression (some e) = .ok fields) (hx : x.Reads e) (f : Field)
    (hforms : ∀ τ ∈ x.tokens f, Effective f τ) :
    ExpandsStandard f (x.tokens f) ↔ OriginCovered f (x.tokens f) := by
  obtain ⟨y, hy, hadm, -⟩ := parse_eq_ok.mp h
  obtain rfl := hy.unique hx
  obtain ⟨w, hw, hmem⟩ := expandCronField_of_admitted (y.nonempty f) (hadm f).1
  rw [← expanded_iff_standard_iff hforms, ExpandsStandard]
  simp only [hw, Except.ok.injEq, mem_union]
  constructor
  · intro hin
    obtain ⟨vs, rfl, -, hall⟩ := hin
    intro v
    rw [← hall, mem_sorted, hmem]
  · intro hall
    refine ⟨_, rfl, sorted_pairwise w, ?_⟩
    intro v
    rw [mem_sorted, hmem, hall]

section Sample

/-- At midnight of the days of a token. -/
def midnightOn (τ : Token) : Expression where
  tokens
    | .minute | .hour => [⟨.single (.ofNat 0), none⟩]
    | .dayOfMonth => [τ]
    | .month | .dayOfWeek => [⟨.any, none⟩]
  nonempty f := by cases f <;> simp

def everySecond : Token := ⟨.any, some (.ofNat 2)⟩

theorem effective_everySecond : ∀ τ ∈ (midnightOn everySecond).tokens .dayOfMonth,
    Effective .dayOfMonth τ := by
  intro τ hτ
  obtain rfl := List.mem_singleton.mp hτ
  exact ⟨not_false, trivial⟩

/-- Every second day counts from the second of the month. -/
theorem every_second_day_from_the_second :
    ¬∀ (e : Text) (fields : List Text) (x : Expression), parseCronExpression (some e) = .ok fields →
      x.Reads e → ∀ f, (∀ τ ∈ x.tokens f, Effective f τ) → ExpandsStandard f (x.tokens f) := by
  intro hall
  obtain ⟨vs, hvs, -, hmem⟩ := hall "0 0 */2 * *".toList
    ["0".toList, "0".toList, "*/2".toList, ['*'], ['*']] (midnightOn everySecond) (by decide)
    (by decide) .dayOfMonth effective_everySecond
  have hexpand : expandCronField .dayOfMonth "*/2".toList =
      .ok [2, 4, 6, 8, 10, 12, 14, 16, 18, 20, 22, 24, 26, 28, 30] := by decide
  obtain rfl := Except.ok.inj (hexpand.symm.trans hvs)
  have hone := (hmem 1).mpr (by decide)
  revert hone
  decide

theorem every_second_day_iff_covered :
    ExpandsStandard .dayOfMonth ((midnightOn everySecond).tokens .dayOfMonth) ↔
      OriginCovered .dayOfMonth ((midnightOn everySecond).tokens .dayOfMonth) := by
  have hparse : parseCronExpression (some "0 0 */2 * *".toList) =
      .ok ["0".toList, "0".toList, "*/2".toList, ['*'], ['*']] := by decide
  exact expands_standard_iff hparse (by decide) .dayOfMonth effective_everySecond

end Sample

end CronPanel.Cron.Expansion
