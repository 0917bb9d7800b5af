import CronPanel.Cron.Tokens

namespace CronPanel.Cron.Documented

open Library.Strings Library.Ranges Library.Fallible Validator Elements Grammar Tokens

def InBounds (f : Field) (n : Numeral) : Prop := f.bounds.1 ≤ n.value ∧ n.value ≤ f.bounds.2

instance (f : Field) (n : Numeral) : Decidable (InBounds f n) := inferInstanceAs (Decidable (_ ∧ _))

def PositiveStep (τ : Token) : Prop := ∀ s ∈ τ.step, 0 < s.value

/-- The forms of the module's grammar, on the numbers as they are written: the
weekday 7 as the end of a range is the Sunday after Saturday. -/
def DocumentedToken (f : Field) (τ : Token) : Prop :=
  PositiveStep τ ∧ match τ.base with
    | .any => True
    | .single n => InBounds f n ∧ τ.step = none
    | .range a b => InBounds f a ∧ InBounds f b ∧ a.value ≤ b.value

def DocumentedExpression (e : Text) : Prop :=
  ∃ x : Expression, x.Reads e ∧ ∀ f, ∀ τ ∈ x.tokens f, DocumentedToken f τ

section Parser

variable {f : Field}

/-- What `_validate_token` checks, with 7 collapsed into 0 before the ends are compared. -/
def Admitted (f : Field) (τ : Token) : Prop :=
  (∀ s ∈ τ.step, s.Short ∧ 0 < s.value) ∧ match τ.base with
    | .any => True
    | .single n => n.Short ∧ InBounds f n
    | .range a b => (a.Short ∧ InBounds f a) ∧ (b.Short ∧ InBounds f b) ∧
        normalizeBound f a.value ≤ normalizeBound f b.value

def Vanishes (f : Field) (τ : Token) : Prop :=
  τ.base = .any ∧ ∃ s ∈ τ.step, 0 < f.first ∧ f.last < s.value

def AdmittedField (f : Field) (τs : List Token) : Prop :=
  (∀ τ ∈ τs, Admitted f τ) ∧ ∃ τ ∈ τs, ¬Vanishes f τ

def rewriteShape (f : Field) : Shape → Shape
  | .any => .any
  | .single n => .single (.ofNat (normalizeBound f n.value))
  | .range a b => .range (.ofNat (normalizeBound f a.value)) (.ofNat (normalizeBound f b.value))

def rewrite (f : Field) (τ : Token) : Token := ⟨rewriteShape f τ.base, τ.step⟩

theorem single_eq_ok {t : Text} {v : ℕ} : single t f = .ok v ↔
    ∃ n : Numeral, t = n.text ∧ n.Short ∧ InBounds f n ∧ normalizeBound f n.value = v := by
  unfold single
  constructor
  · intro h
    split_ifs at h with hd
    · obtain ⟨w, hw, h⟩ := bind_eq_ok.mp h
      obtain ⟨-, hl, rfl⟩ := int_eq_ok.mp hw
      split_ifs at h with hb
      · cases h
      · refine ⟨⟨t, hd⟩, rfl, hl, ?_, Except.ok.inj h⟩
        exact ⟨Nat.le_of_not_lt fun hlt ↦ hb (.inl hlt), Nat.le_of_not_lt fun hlt ↦ hb (.inr hlt)⟩
    · cases h
  · intro h
    obtain ⟨n, rfl, hl, ⟨hlow, hhigh⟩, rfl⟩ := h
    have hi : int n.text = .ok n.value := int_eq_ok.mpr ⟨n.digits, hl, rfl⟩
    rw [if_pos n.digits, hi, ok_bind]
    exact if_neg (by omega)

theorem readStep_eq_ok {t : Text} {v : ℕ} : readStep t f = .ok v ↔
    ∃ s : Numeral, t = s.text ∧ s.Short ∧ 0 < s.value ∧ s.value = v := by
  constructor
  · intro h
    obtain ⟨s, rfl, rfl⟩ := readStep_ok h
    exact ⟨⟨s.text, s.digits⟩, rfl, s.length_le, s.pos, rfl⟩
  · intro h
    obtain ⟨s, rfl, hl, hpos, rfl⟩ := h
    exact readStep_text ⟨s.text, s.digits, hl, hpos⟩

theorem splitStep_eq_ok {t base : Text} {step : Option (Text × ℕ)} :
    splitStep t f = .ok (base, step) ↔
      ∃ s : Option Numeral, (∀ n ∈ s, n.Short ∧ 0 < n.value) ∧ '/' ∉ base ∧
        t = s.elim base (fun n ↦ base ++ '/' :: n.text) ∧
          step = s.map fun n ↦ (n.text, n.value) := by
  unfold splitStep
  constructor
  · intro h
    split_ifs at h with hslash
    · obtain ⟨hnot, heq⟩ := partition_of_mem hslash
      obtain ⟨v, hv, h⟩ := bind_eq_ok.mp h
      obtain ⟨s, hs, hl, hpos, rfl⟩ := readStep_eq_ok.mp hv
      have hrest : (partition '/' t).2 = s.text := hs
      obtain ⟨rfl, rfl⟩ := Prod.mk.inj (Except.ok.inj h)
      refine ⟨some s, ?_, hnot, ?_, by rw [hs]; rfl⟩
      · intro n hn
        obtain rfl := Option.some.inj hn
        exact ⟨hl, hpos⟩
      · rw [hrest] at heq
        exact heq
    · obtain ⟨rfl, rfl⟩ := Prod.mk.inj (Except.ok.inj h)
      exact ⟨none, by simp, hslash, rfl, rfl⟩
  · intro h
    obtain ⟨s, hs, hnot, rfl, rfl⟩ := h
    cases s with
    | none => exact if_neg hnot
    | some n =>
      obtain ⟨hl, hpos⟩ := hs n rfl
      have hread : readStep n.text f = .ok n.value := readStep_eq_ok.mpr ⟨n, rfl, hl, hpos, rfl⟩
      have hm : '/' ∈ base ++ '/' :: n.text := by simp
      simp only [Option.elim, if_pos hm, partition_append hnot, hread, ok_bind, Option.map_some]

theorem tokenPattern_text (τ : Token) : tokenPattern τ.text := by
  have hplain :
      ∀ n : Numeral, ∀ c ∈ n.text, (c.isDigit || c == ',' || c == '-' || c == '*' || c == '/') := by
    intro n c hc
    simp [isDigit_of_mem n.digits hc]
  have hbase : ∀ s : Shape, tokenPattern s.text := by
    intro s
    simp only [tokenPattern, Bool.and_eq_true, Bool.not_eq_true', List.isEmpty_eq_false_iff,
      List.all_eq_true]
    cases s with
    | any => simp [Shape.text, starText]
    | single n => exact ⟨ne_nil_of_isDigits n.digits, hplain n⟩
    | range a b =>
      refine ⟨by simp [Shape.text], ?_⟩
      intro c hc
      rcases List.mem_append.mp hc with hc | hc
      · exact hplain a c hc
      · rcases List.mem_cons.mp hc with rfl | hc
        · rfl
        · exact hplain b c hc
  obtain ⟨base, step⟩ := τ
  have hb := hbase base
  cases step with
  | none => exact hb
  | some n =>
    simp only [tokenPattern, Bool.and_eq_true, Bool.not_eq_true', List.isEmpty_eq_false_iff,
      List.all_eq_true] at hb ⊢
    refine ⟨by simp [Token.text], ?_⟩
    intro c hc
    rcases List.mem_append.mp hc with hc | hc
    · exact hb.2 c hc
    · rcases List.mem_cons.mp hc with rfl | hc
      · rfl
      · exact hplain n c hc

theorem normalizeSingle_eq_ok {t u : Text} : normalizeSingle t f = .ok u ↔
    ∃ n : Numeral, t = n.text ∧ n.Short ∧ InBounds f n ∧
      u = decimal (normalizeBound f n.value) := by
  rw [normalizeSingle, map_eq_ok]
  constructor
  · intro h
    obtain ⟨v, hv, rfl⟩ := h
    obtain ⟨n, ht, hl, hb, rfl⟩ := single_eq_ok.mp hv
    exact ⟨n, ht, hl, hb, rfl⟩
  · intro h
    obtain ⟨n, ht, hl, hb, rfl⟩ := h
    exact ⟨_, single_eq_ok.mpr ⟨n, ht, hl, hb, rfl⟩, rfl⟩

theorem int_normalized {n : Numeral} (h : InBounds f n) :
    int (decimal (normalizeBound f n.value)) = .ok (normalizeBound f n.value) :=
  int_decimal (le_sixty_of_mem (normalizeBound_mem h.1 h.2))

theorem withStep_rewrite (b : Shape) (s : Option Numeral) :
    withStep b.text (s.map fun n ↦ (n.text, n.value)) = Token.text ⟨b, s⟩ := by
  cases s <;> rfl

theorem splitStep_of_admitted {base : Shape} {step : Option Numeral}
    (h : ∀ s, step = some s → s.text.length ≤ maxStrDigits ∧ 0 < s.value) :
    splitStep (Token.text ⟨base, step⟩) f =
      .ok (base.text, step.map fun n ↦ (n.text, n.value)) :=
  splitStep_eq_ok.mpr ⟨step, h, base.slash_not_mem, rfl, rfl⟩

theorem range_parts (a b : Numeral) : '-' ∈ (Shape.range a b).text ∧
    partition '-' (Shape.range a b).text = (a.text, b.text) ∧ ¬(a.text = [] ∨ b.text = []) := by
  refine ⟨by simp [Shape.text], partition_append (a.not_mem_text rfl), ?_⟩
  intro hx
  rcases hx with hx | hx
  · exact ne_nil_of_isDigits a.digits hx
  · exact ne_nil_of_isDigits b.digits hx

theorem validateToken_of_admitted {τ : Token} (h : Admitted f τ) :
    validateToken τ.text f = .ok (rewrite f τ).text := by
  rw [validateToken, if_pos (tokenPattern_text τ)]
  by_cases hstar : τ.text = starText
  · obtain rfl : τ = ⟨.any, none⟩ := Token.text_injective hstar
    rfl
  · obtain ⟨base, step⟩ := τ
    obtain ⟨hs, hb⟩ := h
    rw [if_neg hstar, splitStep_of_admitted hs, ok_bind]
    have hwith := withStep_rewrite (rewriteShape f base) step
    cases base with
    | any => exact congrArg Except.ok hwith
    | single n =>
      have hne : n.text ≠ starText := ne_star_of_isDigits n.digits
      have hnorm := normalizeSingle_eq_ok.mpr ⟨n, rfl, hb.1, hb.2, rfl⟩
      simp only [Shape.text, if_neg hne, if_neg (n.not_mem_text (c := '-') rfl), hnorm, ok_bind]
      exact congrArg Except.ok hwith
    | range a b =>
      obtain ⟨⟨hla, hba⟩, ⟨hlb, hbb⟩, hle⟩ := hb
      obtain ⟨hm, hpart, hnil⟩ := range_parts a b
      have hna := normalizeSingle_eq_ok.mpr ⟨a, rfl, hla, hba, rfl⟩
      have hnb := normalizeSingle_eq_ok.mpr ⟨b, rfl, hlb, hbb, rfl⟩
      simp only [if_neg (Shape.text_ne_star_range a b), if_pos hm, hpart, if_neg hnil, hna, hnb,
        ok_bind, int_normalized hba, int_normalized hbb, if_neg (Nat.not_lt.mpr hle)]
      exact congrArg Except.ok hwith

theorem admitted_of_validateToken {t n : Text} (h : validateToken t f = .ok n) :
    ∃ τ : Token, t = τ.text ∧ Admitted f τ ∧ n = (rewrite f τ).text := by
  rw [validateToken] at h
  split_ifs at h with hp hstar
  · obtain rfl := Except.ok.inj h
    exact ⟨⟨.any, none⟩, hstar, ⟨by simp, trivial⟩, rfl⟩
  · obtain ⟨⟨base, step⟩, hsplit, h⟩ := bind_eq_ok.mp h
    obtain ⟨s, hs, hnot, ht, rfl⟩ := splitStep_eq_ok.mp hsplit
    dsimp only at h
    split_ifs at h with hb hd hr
    · obtain rfl := hb
      obtain rfl := Except.ok.inj h
      exact ⟨⟨.any, s⟩, ht, ⟨hs, trivial⟩, withStep_rewrite .any s⟩
    · cases h
    · obtain ⟨-, hbase⟩ := partition_of_mem hd
      obtain ⟨u, hu, h⟩ := bind_eq_ok.mp h
      obtain ⟨v, hv, h⟩ := bind_eq_ok.mp h
      obtain ⟨a, ha, hla, hba, rfl⟩ := normalizeSingle_eq_ok.mp hu
      obtain ⟨b, hb, hlb, hbb, rfl⟩ := normalizeSingle_eq_ok.mp hv
      rw [int_normalized hba, int_normalized hbb, ok_bind, ok_bind] at h
      split_ifs at h with hle
      · cases h
      · obtain rfl := Except.ok.inj h
        rw [show (partition '-' base).1 = a.text from ha,
          show (partition '-' base).2 = b.text from hb] at hbase
        have htext : base = (Shape.range a b).text := hbase
        refine ⟨⟨.range a b, s⟩, ?_, ⟨hs, ⟨hla, hba⟩, ⟨hlb, hbb⟩, Nat.not_lt.mp hle⟩, ?_⟩
        · rw [ht, htext]
          rfl
        · exact withStep_rewrite (rewriteShape f (.range a b)) s
    · obtain ⟨u, hu, h⟩ := bind_eq_ok.mp h
      obtain ⟨a, rfl, hl, hbd, rfl⟩ := normalizeSingle_eq_ok.mp hu
      obtain rfl := Except.ok.inj h
      exact ⟨⟨.single a, s⟩, ht, ⟨hs, hl, hbd⟩, withStep_rewrite (rewriteShape f (.single a)) s⟩
  · cases h

theorem first_le_one (f : Field) : f.first ≤ 1 := by cases f <;> decide

theorem multiples_nonempty {s : ℕ} (hs : 0 < s) :
    (f.allowed.filter (fun v ↦ s ∣ v)).Nonempty ↔ ¬(0 < f.first ∧ f.last < s) := by
  constructor
  · intro hne
    obtain ⟨v, hv⟩ := hne
    obtain ⟨hv, hdvd⟩ := Finset.mem_filter.mp hv
    obtain ⟨hlow, hhigh⟩ := Field.mem_allowed.mp hv
    intro hx
    have hle : s ≤ v := Nat.le_of_dvd (Nat.lt_of_lt_of_le hx.1 hlow) hdvd
    omega
  · intro hx
    by_cases hfirst : f.first = 0
    · refine ⟨0, Finset.mem_filter.mpr ⟨Field.mem_allowed.mpr ⟨hfirst.le, Nat.zero_le _⟩, ?_⟩⟩
      exact Nat.dvd_zero s
    · have hle : s ≤ f.last := Nat.le_of_not_lt fun hlt ↦ hx ⟨Nat.pos_of_ne_zero hfirst, hlt⟩
      have hone := first_le_one f
      exact ⟨s, Finset.mem_filter.mpr ⟨Field.mem_allowed.mpr ⟨by omega, hle⟩, Nat.dvd_refl s⟩⟩

def numeralStep (s : Numeral) (h : s.Short ∧ 0 < s.value) : Step := ⟨s.text, s.digits, h.1, h.2⟩

theorem exists_element {τ : Token} (h : Admitted f τ) :
    ∃ e : Element f, e.text = (rewrite f τ).text ∧ (e.values.Nonempty ↔ ¬Vanishes f τ) := by
  obtain ⟨base, step⟩ := τ
  obtain ⟨hs, hb⟩ := h
  have hstep : ∃ s : Option Step, s.map Step.text = step.map Numeral.text ∧
      s.map Step.value = step.map Numeral.value := by
    cases step with
    | none => exact ⟨none, rfl, rfl⟩
    | some n => exact ⟨some (numeralStep n (hs n rfl)), rfl, rfl⟩
  obtain ⟨s, htext, hvalue⟩ := hstep
  have hsame : ∀ e : Element f, e.step = s → e.base.text = (rewriteShape f base).text →
      e.text = (rewrite f ⟨base, step⟩).text := by
    intro e he hbase
    cases s <;> cases step <;> simp_all [Element.text, Token.text, rewrite]
  cases base with
  | any =>
    refine ⟨⟨.any, s, trivial⟩, hsame _ rfl rfl, ?_⟩
    cases s with
    | none =>
      obtain rfl : step = none := by simpa using htext.symm
      have hne : f.allowed.Nonempty :=
        ⟨f.last, Field.mem_allowed.mpr ⟨by cases f <;> decide, Nat.le_refl _⟩⟩
      simpa [Vanishes, Element.values] using hne
    | some s =>
      obtain ⟨n, rfl, hn⟩ : ∃ n, step = some n ∧ n.value = s.value := by
        simpa [eq_comm] using hvalue
      have hpos : 0 < s.value := s.pos
      have hiff := multiples_nonempty (f := f) hpos
      simpa [Vanishes, Element.values, hn] using hiff
  | single n =>
    refine ⟨⟨.single (normalizeBound f n.value), s, normalizeBound_mem hb.2.1 hb.2.2⟩,
      hsame _ rfl rfl, ?_⟩
    simp [Vanishes, Element.values]
  | range a b =>
    obtain ⟨⟨-, hba⟩, ⟨-, hbb⟩, hle⟩ := hb
    have hin : (Base.range (normalizeBound f a.value) (normalizeBound f b.value)).InBounds f :=
      ⟨normalizeBound_mem hba.1 hba.2, normalizeBound_mem hbb.1 hbb.2, hle⟩
    refine ⟨⟨.range _ _, s, hin⟩, hsame _ rfl rfl, ?_⟩
    have hstart :
        normalizeBound f a.value ∈ Finset.Icc (normalizeBound f a.value)
        (normalizeBound f b.value) :=
      Finset.mem_Icc.mpr ⟨Nat.le_refl _, hle⟩
    have hne : (Element.values ⟨.range _ _, s, hin⟩).Nonempty := by
      refine ⟨normalizeBound f a.value, ?_⟩
      cases s with
      | none => exact hstart
      | some s => exact Finset.mem_filter.mpr ⟨hstart, by simp⟩
    simpa [Vanishes] using hne

theorem exists_elements {τs : List Token} (h : ∀ τ ∈ τs, Admitted f τ) :
    ∃ es : List (Element f), es.map Element.text = (τs.map (rewrite f)).map Token.text ∧
      ((∃ e ∈ es, e.values.Nonempty) ↔ ∃ τ ∈ τs, ¬Vanishes f τ) := by
  induction τs with
  | nil => exact ⟨[], rfl, by simp⟩
  | cons τ τs ih =>
    obtain ⟨es, htexts, hes⟩ := ih fun υ hυ ↦ h υ (List.mem_cons_of_mem _ hυ)
    obtain ⟨e, htext, he⟩ := exists_element (h τ List.mem_cons_self)
    refine ⟨e :: es, by simp [htext, htexts], ?_⟩
    simp only [List.mem_cons, exists_eq_or_imp, he, hes]

theorem forall₂_validate {parts normalized : List Text}
    (h : List.Forall₂ (fun part n ↦ validateToken part f = .ok n) parts normalized) :
    ∃ τs : List Token, parts = τs.map Token.text ∧ (∀ τ ∈ τs, Admitted f τ) ∧
      normalized = (τs.map (rewrite f)).map Token.text := by
  induction h with
  | nil => exact ⟨[], rfl, by simp, rfl⟩
  | cons hn _ ih =>
    obtain ⟨τs, rfl, hall, rfl⟩ := ih
    obtain ⟨τ, rfl, hτ, rfl⟩ := admitted_of_validateToken hn
    refine ⟨τ :: τs, rfl, ?_, rfl⟩
    intro υ hυ
    rcases List.mem_cons.mp hυ with rfl | hυ
    · exact hτ
    · exact hall υ hυ

theorem mapM_strip {w : Text} (hw : ∀ c ∈ w, isSpace c = false) :
    (w.splitOn ',').mapM (fun part ↦ validateToken (strip part) f) =
      (w.splitOn ',').mapM (fun part ↦ validateToken part f) := by
  have hparts : (w.splitOn ',').map strip = w.splitOn ',' := by
    refine (List.map_congr_left ?_).trans (List.map_id _)
    intro part hpart
    apply strip_of_forall
    intro c hc
    have hm : c ∈ [','].intercalate (w.splitOn ',') := mem_intercalate_of_mem hpart hc
    rw [List.intercalate_splitOn] at hm
    exact hw c hm
  calc (w.splitOn ',').mapM (fun part ↦ validateToken (strip part) f)
      = ((w.splitOn ',').map strip).mapM (fun part ↦ validateToken part f) :=
        (List.mapM_map (f := strip) (g := fun part ↦ validateToken part f)).symm
    _ = (w.splitOn ',').mapM (fun part ↦ validateToken part f) := by rw [hparts]

theorem foldl_values_eq_empty {es : List (Element f)} :
    es.foldl (fun values e ↦ values ∪ e.values) ∅ = ∅ ↔ ¬∃ e ∈ es, e.values.Nonempty := by
  rw [← not_iff_not, not_not, ← ne_eq, ← Finset.nonempty_iff_ne_empty]
  constructor
  · intro hne
    obtain ⟨v, hv⟩ := hne
    obtain ⟨e, he, hv⟩ := (mem_foldl_union.mp hv).resolve_left (Finset.notMem_empty v)
    exact ⟨e, he, v, hv⟩
  · intro hne
    obtain ⟨e, he, v, hv⟩ := hne
    exact ⟨v, mem_foldl_union.mpr (.inr ⟨e, he, hv⟩)⟩

theorem parseField_eq_ok {w n : Text} (hne : w ≠ []) (hw : ∀ c ∈ w, isSpace c = false) :
    parseField f w = .ok n ↔
      ∃ τs, τs ≠ [] ∧ w = listText τs ∧ AdmittedField f τs ∧ n = listText (τs.map (rewrite f)) := by
  rw [parseField, if_neg hne, mapM_strip hw, bind_eq_ok]
  constructor
  · intro h
    obtain ⟨normalized, hn, h⟩ := h
    obtain ⟨τs, hτs, hall, rfl⟩ := forall₂_validate (mapM_eq_ok.mp hn)
    obtain ⟨es, htexts, hes⟩ := exists_elements hall
    rw [← htexts, expandTokens_text, ok_bind] at h
    split_ifs at h with hempty
    · cases h
    · obtain ⟨τ, hτ, hv⟩ := hes.mp (not_not.mp (foldl_values_eq_empty.not.mp hempty))
      refine ⟨τs, List.ne_nil_of_mem hτ, ?_, ⟨hall, τ, hτ, hv⟩, ?_⟩
      · rw [listText, ← hτs, List.intercalate_splitOn]
      · rw [listText, ← htexts]
        exact (Except.ok.inj h).symm
  · intro h
    obtain ⟨τs, hnil, rfl, ⟨hall, hexists⟩, rfl⟩ := h
    obtain ⟨es, htexts, hes⟩ := exists_elements hall
    refine ⟨(τs.map (rewrite f)).map Token.text, ?_, ?_⟩
    · rw [splitOn_listText hnil, mapM_eq_ok, List.map_map, List.forall₂_map_left_iff,
        List.forall₂_map_right_iff, List.forall₂_same]
      exact fun τ hτ ↦ validateToken_of_admitted (hall τ hτ)
    · rw [← htexts, expandTokens_text, ok_bind,
        if_neg (foldl_values_eq_empty.not.mpr (not_not.mpr (hes.mpr hexists))), htexts]
      rfl

end Parser

theorem exists_byField {ws : List Text} (h : ws.length = 5) :
    ∃ w : Field → Text, ws = Field.names.map w := by
  match ws, h with
  | [a, b, c, d, e], _ => exact ⟨Validator.Field.rec a b c d e, rfl⟩

theorem parse_words {e : Text} {w : Field → Text} (hw : split e = Field.names.map w)
    {fields : List Text} :
    parseCronExpression (some e) = .ok fields ↔
      ∃ g : Field → Text, fields = Field.names.map g ∧ ∀ f, parseField f (w f) = .ok (g f) := by
  have hempty : strip e ≠ [] := by
    intro h
    rw [← split_strip, h] at hw
    simp [split, Field.names] at hw
  have hlen : ¬(Field.names.map w).length ≠ 5 := by simp [Field.names]
  have hzip : Field.names.zip (Field.names.map w) = Field.names.map fun f ↦ (f, w f) := rfl
  simp only [parseCronExpression, if_neg hempty, split_strip, hw, if_neg hlen]
  rw [hzip, mapM_eq_ok, List.forall₂_map_left_iff]
  constructor
  · intro h
    have hfive : fields.length = 5 := h.length_eq.symm
    obtain ⟨g, rfl⟩ := exists_byField hfive
    rw [List.forall₂_map_right_iff, List.forall₂_same] at h
    exact ⟨g, rfl, fun f ↦ h f f.mem_names⟩
  · intro h
    obtain ⟨g, rfl, hg⟩ := h
    rw [List.forall₂_map_right_iff, List.forall₂_same]
    exact fun f _ ↦ hg f

theorem five_words {e : Text} {fields : List Text} (h : parseCronExpression (some e) = .ok fields) :
    (split e).length = 5 := by
  simp only [parseCronExpression, split_strip] at h
  split_ifs at h with hnil hlen
  exact not_not.mp hlen

/-- The parser, field by field: which expressions it accepts and what it makes of them. -/
theorem parse_eq_ok {e : Text} {fields : List Text} : parseCronExpression (some e) = .ok fields ↔
    ∃ x : Expression, x.Reads e ∧ (∀ f, AdmittedField f (x.tokens f)) ∧
      fields = Field.names.map fun f ↦ listText ((x.tokens f).map (rewrite f)) := by
  have hchars : ∀ w ∈ split e, w ≠ [] ∧ ∀ c ∈ w, isSpace c = false := by
    intro w hw
    exact ⟨by simpa using (List.mem_filter.mp hw).2, fun c hc ↦ isSpace_of_mem_split hw hc⟩
  constructor
  · intro h
    obtain ⟨w, hw⟩ := exists_byField (five_words h)
    obtain ⟨g, rfl, hg⟩ := (parse_words hw).mp h
    have hparsed : ∀ f, ∃ τs, τs ≠ [] ∧ w f = listText τs ∧ AdmittedField f τs ∧
        g f = listText (τs.map (rewrite f)) := by
      intro f
      have hmem : w f ∈ split e := hw ▸ List.mem_map_of_mem f.mem_names
      exact (parseField_eq_ok (hchars _ hmem).1 (hchars _ hmem).2).mp (hg f)
    choose τs hne htext hadm hnorm using hparsed
    refine ⟨⟨τs, hne⟩, ?_, hadm, List.map_congr_left fun f _ ↦ hnorm f⟩
    exact hw.trans (List.map_congr_left fun f _ ↦ htext f)
  · intro h
    obtain ⟨x, hx, hadm, rfl⟩ := h
    refine (parse_words hx).mpr ⟨_, rfl, ?_⟩
    intro f
    have hmem : listText (x.tokens f) ∈ split e := by
      rw [show split e = x.words from hx]
      exact List.mem_map_of_mem f.mem_names
    exact (parseField_eq_ok (hchars _ hmem).1 (hchars _ hmem).2).mpr
      ⟨_, x.nonempty f, rfl, hadm f, rfl⟩

theorem parse_succeeds {e : Text} : Succeeds (parseCronExpression (some e)) ↔
    ∃ x : Expression, x.Reads e ∧ ∀ f, AdmittedField f (x.tokens f) := by
  constructor
  · intro h
    obtain ⟨fields, h⟩ := h
    obtain ⟨x, hx, hadm, -⟩ := parse_eq_ok.mp h
    exact ⟨x, hx, hadm⟩
  · intro h
    obtain ⟨x, hx, hadm⟩ := h
    exact ⟨_, parse_eq_ok.mpr ⟨x, hx, hadm, rfl⟩⟩

section Divergence

/-- In bounds and in order, with a step allowed after a single value and 7
allowed on either side of a range of weekdays. -/
def Regular (f : Field) (τ : Token) : Prop :=
  PositiveStep τ ∧ match τ.base with
    | .any => True
    | .single n => InBounds f n
    | .range a b => InBounds f a ∧ InBounds f b ∧ (a.value ≤ b.value ∨ f = .dayOfWeek ∧ a.value = 7)

def SteppedSingle (τ : Token) : Prop :=
  match τ.base with
  | .single _ => τ.step ≠ none
  | _ => False

def FromSunday (f : Field) (τ : Token) : Prop :=
  match τ.base with
  | .range a b => f = .dayOfWeek ∧ a.value = 7 ∧ b.value < 7
  | _ => False

def ToSunday (f : Field) (τ : Token) : Prop :=
  match τ.base with
  | .range a b => f = .dayOfWeek ∧ 0 < a.value ∧ a.value < 7 ∧ b.value = 7
  | _ => False

def numerals (τ : Token) : List Numeral :=
  τ.step.toList ++ match τ.base with
    | .any => []
    | .single n => [n]
    | .range a b => [a, b]

def Long (τ : Token) : Prop := ∃ n ∈ numerals τ, ¬n.Short

variable {f : Field} {τ : Token}

theorem documentedToken_iff :
    DocumentedToken f τ ↔ Regular f τ ∧ ¬(SteppedSingle τ ∨ FromSunday f τ) := by
  obtain ⟨base, step⟩ := τ
  cases base with
  | any => simp [DocumentedToken, Regular, SteppedSingle, FromSunday]
  | single n => simp [DocumentedToken, Regular, SteppedSingle, FromSunday, and_assoc]
  | range a b =>
    simp only [DocumentedToken, Regular, SteppedSingle, FromSunday, false_or]
    constructor
    · intro h
      obtain ⟨hs, ha, hb, hle⟩ := h
      exact ⟨⟨hs, ha, hb, .inl hle⟩, by omega⟩
    · intro h
      obtain ⟨⟨hs, ha, hb, hle⟩, hnot⟩ := h
      refine ⟨hs, ha, hb, ?_⟩
      rcases hle with hle | ⟨hf, hseven⟩
      · exact hle
      · by_contra hlt
        exact hnot ⟨hf, hseven, by omega⟩

theorem normalizeBound_le {a b : ℕ} (ha : a ≤ f.bounds.2) (hb : b ≤ f.bounds.2) :
    normalizeBound f a ≤ normalizeBound f b ↔
      (a ≤ b ∨ f = .dayOfWeek ∧ a = 7) ∧ ¬(f = .dayOfWeek ∧ 0 < a ∧ a < 7 ∧ b = 7) := by
  unfold normalizeBound
  cases f with
  | dayOfWeek =>
    change a ≤ 7 at ha
    change b ≤ 7 at hb
    simp only [true_and]
    split_ifs <;> omega
  | _ => simp

theorem not_long_iff : ¬Long τ ↔ (∀ s ∈ τ.step, s.Short) ∧ match τ.base with
    | .any => True
    | .single n => n.Short
    | .range a b => a.Short ∧ b.Short := by
  obtain ⟨base, step⟩ := τ
  cases base <;> cases step <;> simp [Long, numerals]

theorem admitted_iff : Admitted f τ ↔ Regular f τ ∧ ¬(ToSunday f τ ∨ Long τ) := by
  obtain ⟨base, step⟩ := τ
  have hstep : (∀ s ∈ step, s.Short ∧ 0 < s.value) ↔
      (∀ s ∈ step, 0 < s.value) ∧ ∀ s ∈ step, s.Short := by
    simp only [forall_and, and_comm]
  rw [not_or, not_long_iff]
  cases base with
  | any =>
    simp only [Admitted, Regular, PositiveStep, ToSunday, hstep]
    tauto
  | single n =>
    simp only [Admitted, Regular, PositiveStep, ToSunday, hstep]
    tauto
  | range a b =>
    simp only [Admitted, Regular, PositiveStep, ToSunday, hstep]
    by_cases hb : InBounds f a ∧ InBounds f b
    · have hle := normalizeBound_le hb.1.2 hb.2.2
      tauto
    · tauto

end Divergence

namespace Expression

variable {x : Tokens.Expression}

/-- Written in the forms of the grammar, or in one of the two more that the code lets through. -/
def Regular (x : Tokens.Expression) : Prop := ∀ f, ∀ τ ∈ x.tokens f, Documented.Regular f τ

/-- Some token is a single value with a step, or a range of weekdays that begins with 7. -/
def Undocumented (x : Tokens.Expression) : Prop :=
  ∃ f, ∃ τ ∈ x.tokens f, SteppedSingle τ ∨ FromSunday f τ

/-- Some weekday range ends with 7, some number has too many digits to be read, or a
field has only steps over a star that skip all its values. -/
def Refused (x : Tokens.Expression) : Prop :=
  (∃ f, ∃ τ ∈ x.tokens f, ToSunday f τ ∨ Long τ) ∨ ∃ f, ∀ τ ∈ x.tokens f, Vanishes f τ

theorem documented_iff :
    (∀ f, ∀ τ ∈ x.tokens f, DocumentedToken f τ) ↔ Regular x ∧ ¬Undocumented x := by
  simp only [documentedToken_iff, Regular, Undocumented, not_exists, not_and, forall_and]

theorem admitted_iff : (∀ f, AdmittedField f (x.tokens f)) ↔ Regular x ∧ ¬Refused x := by
  simp only [AdmittedField, Documented.admitted_iff, Regular, Refused, not_or, not_exists,
    not_and, not_forall, forall_and, exists_prop, and_assoc]

end Expression

/-- The parser and the documented grammar agree on a text exactly when neither or both
kinds of deviating forms stand in it. -/
theorem accepts_iff_documented_iff (e : Text) :
    (Succeeds (parseCronExpression (some e)) ↔ DocumentedExpression e) ↔
      ∀ x : Expression, x.Reads e → Expression.Regular x →
        (Expression.Undocumented x ↔ Expression.Refused x) := by
  rw [parse_succeeds, DocumentedExpression]
  by_cases hread : ∃ x : Expression, x.Reads e
  · obtain ⟨x, hx⟩ := hread
    have hone : ∀ P : Expression → Prop, (∃ y : Expression, y.Reads e ∧ P y) ↔ P x := by
      intro P
      constructor
      · intro h
        obtain ⟨y, hy, hP⟩ := h
        exact hy.unique hx ▸ hP
      · exact fun hP ↦ ⟨x, hx, hP⟩
    have hall : (∀ y : Expression, y.Reads e → Expression.Regular y →
        (Expression.Undocumented y ↔ Expression.Refused y)) ↔
          (Expression.Regular x → (Expression.Undocumented x ↔ Expression.Refused x)) := by
      constructor
      · exact fun h ↦ h x hx
      · intro h y hy
        exact hy.unique hx ▸ h
    rw [hone, hone, hall, Expression.documented_iff, Expression.admitted_iff, and_congr_right_iff,
      not_iff_not]
    exact imp_congr_right fun _ ↦ Iff.comm
  · have hnone : ∀ P : Expression → Prop, ¬∃ y : Expression, y.Reads e ∧ P y :=
      fun P h ↦ hread (h.imp fun _ hy ↦ hy.1)
    have hvacuous : ∀ y : Expression, y.Reads e → Expression.Regular y →
        (Expression.Undocumented y ↔ Expression.Refused y) := fun y hy ↦ absurd ⟨y, hy⟩ hread
    exact iff_of_true (iff_of_false (hnone _) (hnone _)) hvacuous

theorem friday_to_sunday_refused :
    ¬∀ e : Text, Succeeds (parseCronExpression (some e)) ↔ DocumentedExpression e := by
  intro hall
  let x : Expression :=
    ⟨Validator.Field.rec [⟨.single (.ofNat 0), none⟩] [⟨.single (.ofNat 0), none⟩]
      [⟨.any, none⟩] [⟨.any, none⟩] [⟨.range (.ofNat 5) (.ofNat 7), none⟩],
      by intro f; cases f <;> simp⟩
  have hdoc : DocumentedExpression "0 0 * * 5-7".toList := by
    refine ⟨x, by decide, ?_⟩
    intro f τ hτ
    cases f
    all_goals
      obtain rfl := List.mem_singleton.mp hτ
      simp [DocumentedToken, PositiveStep, InBounds, Field.bounds]
  obtain ⟨fields, hparse⟩ := (hall _).mpr hdoc
  have herr : parseCronExpression (some "0 0 * * 5-7".toList) = .error (.validation ⟨.invalidRange,
      "El rango 5-7 está invertido en día de la semana.".toList, some .dayOfWeek⟩) := by decide
  rw [herr] at hparse
  cases hparse

end CronPanel.Cron.Documented
