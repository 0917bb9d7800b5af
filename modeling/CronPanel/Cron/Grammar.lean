import CronPanel.Cron.Elements

namespace CronPanel.Cron.Grammar

open Library.Strings Library.Ranges Library.Fallible Validator Elements

variable {f : Field}

theorem not_mem_of_isDigits {t : Text} (h : isDigits t) {c : Char} (hc : c.isDigit = false) :
    c ∉ t := fun hm ↦ by simp [isDigit_of_mem h hm] at hc

theorem not_mem_decimal (n : ℕ) {c : Char} (hc : c.isDigit = false) : c ∉ decimal n :=
  not_mem_of_isDigits (isDigits_decimal n) hc

theorem ne_star_of_isDigits {t : Text} (h : isDigits t) : t ≠ starText := fun e ↦
  not_mem_of_isDigits h (c := '*') rfl (by simp [e, starText])

theorem ne_nil_of_isDigits {t : Text} (h : isDigits t) : t ≠ [] := by
  intro heq
  simp [heq, isDigits] at h

theorem decimal_ne_nil (n : ℕ) : decimal n ≠ [] := Nat.toDigits_ne_nil

theorem int_decimal {n : ℕ} (h : n ≤ 60) : int (decimal n) = .ok n := by
  have hlt : n < 10 ^ maxStrDigits := by
    have h₂ : 10 ^ 2 ≤ 10 ^ maxStrDigits := Nat.pow_le_pow_right (by omega) (by simp [maxStrDigits])
    omega
  simp [int, int?_decimal hlt]

theorem int_eq_ok {t : Text} {n : ℕ} :
    int t = .ok n ↔ isDigits t ∧ t.length ≤ maxStrDigits ∧ Nat.ofDigitChars 10 t 0 = n := by
  rw [← int?_eq_some, int]
  cases int? t <;> simp

theorem mem_bounds_of_mem_allowed {n : ℕ} (h : n ∈ f.allowed) :
    f.bounds.1 ≤ n ∧ n ≤ f.bounds.2 := by
  rw [Field.mem_allowed] at h
  cases f <;> simp only [Field.first, Field.last, Field.bounds] at h ⊢ <;> omega

theorem normalizeBound_of_mem {n : ℕ} (h : n ∈ f.allowed) : normalizeBound f n = n := by
  rw [Field.mem_allowed] at h
  apply if_neg
  intro hx
  obtain ⟨rfl, rfl⟩ := hx
  simp [Field.last] at h

theorem normalizeBound_mem {n : ℕ} (h₁ : f.bounds.1 ≤ n) (h₂ : n ≤ f.bounds.2) :
    normalizeBound f n ∈ f.allowed := by
  rw [Field.mem_allowed]
  cases f with
  | dayOfWeek =>
    simp only [Field.first, Field.last, Field.bounds, normalizeBound, true_and] at h₁ h₂ ⊢
    split_ifs <;> omega
  | _ =>
    simp only [Field.first, Field.last, Field.bounds, normalizeBound, reduceCtorEq, false_and,
      if_false] at h₁ h₂ ⊢
    exact ⟨h₁, h₂⟩

theorem le_sixty_of_mem {n : ℕ} (h : n ∈ f.allowed) : n ≤ 60 :=
  (Field.mem_allowed.mp h).2.trans f.last_lt.le

theorem single_decimal {n : ℕ} (h : n ∈ f.allowed) : single (decimal n) f = .ok n := by
  have hb := mem_bounds_of_mem_allowed h
  simp only [single, isDigits_decimal, if_true, int_decimal (le_sixty_of_mem h), ok_bind]
  rw [if_neg (by omega), normalizeBound_of_mem h]

theorem single_ok {t : Text} {n : ℕ} (h : single t f = .ok n) : n ∈ f.allowed := by
  simp only [single] at h
  split_ifs at h with hd
  · obtain ⟨v, -, h⟩ := bind_eq_ok.mp h
    split_ifs at h with hb
    · cases h
    · cases h
      exact normalizeBound_mem (by omega) (by omega)
  · cases h

theorem readStep_text (s : Step) : readStep s.text f = .ok s.value := by
  have hi : int s.text = .ok s.value := int_eq_ok.mpr ⟨s.digits, s.length_le, rfl⟩
  simp only [readStep, s.digits, if_true, hi, ok_bind]
  exact if_neg (Nat.not_le.mpr s.pos)

theorem readStep_ok {t : Text} {n : ℕ} (h : readStep t f = .ok n) :
    ∃ s : Step, s.text = t ∧ s.value = n := by
  simp only [readStep] at h
  split_ifs at h with hd
  · obtain ⟨v, hv, h⟩ := bind_eq_ok.mp h
    obtain ⟨-, hl, rfl⟩ := int_eq_ok.mp hv
    split_ifs at h with hp
    · cases h
    · cases h
      exact ⟨⟨t, hd, hl, Nat.not_le.mp hp⟩, rfl, rfl⟩
  · cases h

theorem slash_not_mem_base (b : Base) : '/' ∉ b.text := by
  cases b with
  | any => simp [Base.text, starText]
  | single n => exact not_mem_decimal n rfl
  | range a b => simp [Base.text, not_mem_decimal]

theorem splitStep_text (e : Element f) :
    splitStep e.text f = .ok (e.base.text, e.step.map fun s ↦ (s.text, s.value)) := by
  obtain ⟨base, step, hb⟩ := e
  cases step with
  | none => exact if_neg (slash_not_mem_base base)
  | some s =>
    have hm : '/' ∈ base.text ++ '/' :: s.text := by simp
    simp only [splitStep, Element.text, Option.elim, if_pos hm,
      partition_append (slash_not_mem_base base), readStep_text, ok_bind, Option.map_some]

theorem splitStep_ok {t base : Text} {step : Option (Text × ℕ)}
    (h : splitStep t f = .ok (base, step)) :
    ∃ s : Option Step, step = s.map fun s ↦ (s.text, s.value) := by
  simp only [splitStep] at h
  split_ifs at h with hm
  · obtain ⟨n, hn, h⟩ := bind_eq_ok.mp h
    obtain ⟨s, hs, rfl⟩ := readStep_ok hn
    cases h
    exact ⟨some s, by simp [hs]⟩
  · cases h
    exact ⟨none, rfl⟩

theorem withStep_text (e : Element f) :
    withStep e.base.text (e.step.map fun s ↦ (s.text, s.value)) = e.text := by
  obtain ⟨base, step, hb⟩ := e
  cases step <;> rfl

theorem text_eq_star {e : Element f} : e.text = starText ↔ e.base = .any ∧ e.step = none := by
  obtain ⟨base, step, hb⟩ := e
  cases step with
  | some s =>
    constructor
    · intro h
      have hm :
          '/' ∈ starText := h ▸ (by simp [Element.text] : '/' ∈ Element.text ⟨base, some s, hb⟩)
      simp [starText] at hm
    · simp
  | none =>
    cases base with
    | any => simp [Element.text, Base.text]
    | single n => simpa [Element.text, Base.text] using ne_star_of_isDigits (isDigits_decimal n)
    | range a b =>
      constructor
      · intro h
        have hm : '-' ∈ starText := h ▸ (by simp [Element.text, Base.text] :
          '-' ∈ Element.text ⟨.range a b, none, hb⟩)
        simp [starText] at hm
      · simp

theorem dash_not_mem_decimal (n : ℕ) : '-' ∉ decimal n := not_mem_decimal n rfl

theorem partition_range (a b : ℕ) :
    partition '-' (decimal a ++ '-' :: decimal b) = (decimal a, decimal b) :=
  partition_append (dash_not_mem_decimal a)

theorem mem_multiples {s v : ℕ} (hs : 0 < s) :
    v ∈ ((range 0 (f.last + 1) s).filter (fun index ↦ index ∈ f.allowed)).toFinset ↔
      v ∈ f.allowed.filter (fun v ↦ s ∣ v) := by
  simp only [List.mem_toFinset, List.mem_filter, mem_range hs, Finset.mem_filter, decide_eq_true_eq,
    Nat.sub_zero, Nat.zero_le, true_and, Nat.lt_succ_iff, Field.mem_allowed]
  tauto

theorem expandToken_text (e : Element f) : expandToken e.text f = .ok e.values := by
  by_cases hstar : e.text = starText
  · obtain ⟨hb, hs⟩ := text_eq_star.mp hstar
    simp [expandToken, hstar, Element.values, hb, hs]
  · rw [expandToken, if_neg hstar, splitStep_text, ok_bind]
    obtain ⟨base, step, hb⟩ := e
    cases base with
    | any =>
      cases step with
      | none => exact absurd rfl hstar
      | some s => exact congrArg Except.ok (Finset.ext fun v ↦ mem_multiples s.pos)
    | single n =>
      have hne := ne_star_of_isDigits (isDigits_decimal n)
      simp only [Base.text, if_neg hne, if_neg (dash_not_mem_decimal n), single_decimal hb, ok_bind]
      cases step <;> rfl
    | range a b =>
      obtain ⟨ha, hb, hab⟩ := hb
      have hne : decimal a ++ '-' :: decimal b ≠ starText := fun h ↦
        (text_eq_star (e := ⟨.range a b, none, ha, hb, hab⟩)).not.mpr (by simp) h
      have hm : '-' ∈ decimal a ++ '-' :: decimal b := by simp
      simp only [Base.text, if_neg hne, if_pos hm, partition_range, decimal_ne_nil,
        or_self, if_false, single_decimal ha, single_decimal hb, ok_bind, Nat.not_lt.mpr hab]
      cases step with
      | none => rfl
      | some s => simp only [Option.map_some, Element.values, Nat.dvd_iff_mod_eq_zero]

theorem tokenPattern_decimal {n : ℕ} {c : Char} (hc : c ∈ decimal n) : c.isDigit :=
  isDigit_of_mem (isDigits_decimal n) hc

theorem tokenPattern_base (b : Base) : tokenPattern b.text := by
  cases b with
  | any => rfl
  | single n =>
    simp only [tokenPattern, Base.text, Bool.and_eq_true, Bool.not_eq_true',
      List.isEmpty_eq_false_iff, List.all_eq_true]
    exact ⟨decimal_ne_nil n, fun c hc ↦ by simp [tokenPattern_decimal hc]⟩
  | range a b =>
    simp only [tokenPattern, Base.text, Bool.and_eq_true, Bool.not_eq_true',
      List.isEmpty_eq_false_iff, List.all_eq_true, List.mem_append, List.mem_cons]
    refine ⟨by simp, ?_⟩
    intro c hx
    rcases hx with hc | rfl | hc
    · simp [tokenPattern_decimal hc]
    · rfl
    · simp [tokenPattern_decimal hc]

theorem tokenPattern_text (e : Element f) : tokenPattern e.text := by
  obtain ⟨base, step, hb⟩ := e
  have hbase := tokenPattern_base base
  cases step with
  | none => exact hbase
  | some s =>
    simp only [tokenPattern, Bool.and_eq_true, List.all_eq_true] at hbase
    simp only [tokenPattern, Element.text, Option.elim, Bool.and_eq_true, Bool.not_eq_true',
      List.isEmpty_eq_false_iff, List.all_eq_true, List.mem_append, List.mem_cons]
    refine ⟨by simp, ?_⟩
    intro c hx
    rcases hx with hc | rfl | hc
    · exact hbase.2 c hc
    · rfl
    · simp [isDigit_of_mem s.digits hc]

theorem validateToken_text (e : Element f) : validateToken e.text f = .ok e.text := by
  rw [validateToken, if_pos (tokenPattern_text e)]
  by_cases hstar : e.text = starText
  · rw [if_pos hstar, hstar]
  · rw [if_neg hstar, splitStep_text, ok_bind]
    have hwith := withStep_text e
    obtain ⟨base, step, hb⟩ := e
    cases base with
    | any => exact congrArg Except.ok hwith
    | single n =>
      have hne := ne_star_of_isDigits (isDigits_decimal n)
      simp only [Base.text, if_neg hne, if_neg (dash_not_mem_decimal n), normalizeSingle,
        single_decimal hb, map_ok, ok_bind]
      exact congrArg Except.ok hwith
    | range a b =>
      obtain ⟨ha, hb, hab⟩ := hb
      have hne : decimal a ++ '-' :: decimal b ≠ starText := fun h ↦
        (text_eq_star (e := ⟨.range a b, none, ha, hb, hab⟩)).not.mpr (by simp) h
      have hm : '-' ∈ decimal a ++ '-' :: decimal b := by simp
      simp only [Base.text, if_neg hne, if_pos hm, partition_range, decimal_ne_nil,
        or_self, if_false, normalizeSingle, single_decimal ha, single_decimal hb, map_ok, ok_bind,
        int_decimal (le_sixty_of_mem ha), int_decimal (le_sixty_of_mem hb), Nat.not_lt.mpr hab]
      exact congrArg Except.ok hwith

theorem validateToken_ok {t n : Text} (h : validateToken t f = .ok n) :
    ∃ e : Element f, n = e.text := by
  rw [validateToken] at h
  split_ifs at h with hp hs
  · cases h
    exact ⟨⟨.any, none, trivial⟩, rfl⟩
  · obtain ⟨⟨base, step⟩, hsplit, h⟩ := bind_eq_ok.mp h
    obtain ⟨s, rfl⟩ := splitStep_ok hsplit
    dsimp only at h
    split_ifs at h with hb hd hr
    · cases h
      exact ⟨⟨.any, s, trivial⟩, withStep_text ⟨.any, s, trivial⟩⟩
    · cases h
    · obtain ⟨startText, hstart, h⟩ := bind_eq_ok.mp h
      obtain ⟨endText, hend, h⟩ := bind_eq_ok.mp h
      obtain ⟨a, ha, rfl⟩ := map_eq_ok.mp hstart
      obtain ⟨b, hb, rfl⟩ := map_eq_ok.mp hend
      have ha := single_ok ha
      have hb := single_ok hb
      simp only [int_decimal (le_sixty_of_mem ha), int_decimal (le_sixty_of_mem hb), ok_bind] at h
      split_ifs at h with hab
      · cases h
      · cases h
        let e : Element f := ⟨.range a b, s, ha, hb, Nat.not_lt.mp hab⟩
        exact ⟨e, withStep_text e⟩
    · obtain ⟨text, htext, h⟩ := bind_eq_ok.mp h
      obtain ⟨v, hv, rfl⟩ := map_eq_ok.mp htext
      cases h
      let e : Element f := ⟨.single v, s, single_ok hv⟩
      exact ⟨e, withStep_text e⟩
  · cases h

theorem plain_of_mem_text (e : Element f) {c : Char} (hc : c ∈ e.text) :
    c.isDigit ∨ c = '-' ∨ c = '*' ∨ c = '/' := by
  have hbase : ∀ b : Base, c ∈ b.text → c.isDigit ∨ c = '-' ∨ c = '*' := by
    intro b hb
    cases b with
    | any =>
      obtain rfl : c = '*' := by simpa [Base.text, starText] using hb
      exact .inr (.inr rfl)
    | single n => exact .inl (tokenPattern_decimal hb)
    | range a b =>
      rcases List.mem_append.mp hb with h | h
      · exact .inl (tokenPattern_decimal h)
      · rcases List.mem_cons.mp h with h | h
        · exact .inr (.inl h)
        · exact .inl (tokenPattern_decimal h)
  obtain ⟨base, step, hb⟩ := e
  cases step with
  | none =>
    rcases hbase base hc with h | h | h
    · exact .inl h
    · exact .inr (.inl h)
    · exact .inr (.inr (.inl h))
  | some s =>
    rcases List.mem_append.mp hc with h | h
    · rcases hbase base h with h | h | h
      · exact .inl h
      · exact .inr (.inl h)
      · exact .inr (.inr (.inl h))
    · rcases List.mem_cons.mp h with h | h
      · exact .inr (.inr (.inr h))
      · exact .inl (isDigit_of_mem s.digits h)

theorem comma_not_mem_text (e : Element f) : ',' ∉ e.text := fun hm ↦ by
  rcases plain_of_mem_text e hm with h | h | h | h <;> simp_all

theorem isSpace_of_mem_text (e : Element f) {c : Char} (hc : c ∈ e.text) : isSpace c = false := by
  rcases plain_of_mem_text e hc with h | rfl | rfl | rfl
  · exact isSpace_of_isDigit h
  all_goals rfl

theorem strip_text (e : Element f) : strip e.text = e.text :=
  strip_of_forall fun _ hc ↦ isSpace_of_mem_text e hc

theorem text_ne_nil (e : Element f) : e.text ≠ [] := fun h ↦ by
  have hp := tokenPattern_text e
  simp [tokenPattern, h] at hp

def joined (es : List (Element f)) : Text := [','].intercalate (es.map Element.text)

theorem splitOn_joined {es : List (Element f)} (hne : es ≠ []) :
    (joined es).splitOn ',' = es.map Element.text := by
  refine List.splitOn_intercalate ',' ?_ (by simpa using hne)
  simp only [List.mem_map]
  intro t hx
  obtain ⟨e, -, rfl⟩ := hx
  exact comma_not_mem_text e

theorem mem_intercalate {sep c : Char} {ts : List Text} (h : c ∈ [sep].intercalate ts) :
    c = sep ∨ ∃ t ∈ ts, c ∈ t := by
  induction ts with
  | nil => simp at h
  | cons t ts ih =>
    cases ts with
    | nil => exact .inr ⟨t, by simp, by simpa using h⟩
    | cons u ts =>
      have he : [sep].intercalate (t :: u :: ts) = t ++ sep :: [sep].intercalate (u :: ts) := by
        simp [List.intercalate]
      rw [he, List.mem_append, List.mem_cons] at h
      rcases h with h | h | h
      · exact .inr ⟨t, by simp, h⟩
      · exact .inl h
      · obtain h | ⟨v, hv, hc⟩ := ih h
        · exact .inl h
        · exact .inr ⟨v, by simp [hv], hc⟩

theorem isSpace_of_mem_joined {es : List (Element f)} {c : Char} (hc : c ∈ joined es) :
    isSpace c = false := by
  obtain rfl | ⟨t, ht, hc⟩ := mem_intercalate hc
  · rfl
  · obtain ⟨e, -, rfl⟩ := List.mem_map.mp ht
    exact isSpace_of_mem_text e hc

theorem joined_ne_nil {es : List (Element f)} (hne : es ≠ []) : joined es ≠ [] := by
  intro h
  have hs := splitOn_joined hne
  rw [h, List.splitOn_nil] at hs
  obtain ⟨e, he⟩ := List.exists_mem_of_ne_nil _ hne
  have hm : e.text ∈ [[]] := hs ▸ List.mem_map_of_mem he
  exact text_ne_nil e (List.mem_singleton.mp hm)

theorem expandTokens_text (es : List (Element f)) :
    expandTokens (es.map Element.text) f =
      .ok (es.foldl (fun values e ↦ values ∪ e.values) ∅) := by
  have hgo : ∀ w : Finset ℕ, (es.map Element.text).foldlM
      (fun values part ↦ (values ∪ ·) <$> expandToken part f) w =
        .ok (es.foldl (fun values e ↦ values ∪ e.values) w) := by
    induction es with
    | nil => exact fun w ↦ rfl
    | cons e es ih =>
      intro w
      rw [List.map_cons, List.foldlM_cons, expandToken_text, map_ok, ok_bind]
      exact ih _
  exact hgo ∅

theorem validateToken_elements {parts normalized : List Text}
    (h : parts.mapM (fun part ↦ validateToken (strip part) f) = .ok normalized) :
    ∃ es : List (Element f), normalized = es.map Element.text ∧ es.length = parts.length := by
  induction mapM_eq_ok.mp h with
  | nil => exact ⟨[], rfl, rfl⟩
  | cons hn _ ih =>
    rename_i parts normalized hall
    obtain ⟨es, rfl, hl⟩ := ih (mapM_eq_ok.mpr hall)
    obtain ⟨e, rfl⟩ := validateToken_ok hn
    exact ⟨e :: es, rfl, by simp [hl]⟩

theorem parseField_ok {token n : Text} (h : parseField f token = .ok n) :
    ∃ es : List (Element f), n = joined es ∧ ∃ e ∈ es, e.values.Nonempty := by
  rw [parseField] at h
  split_ifs at h with hnil
  · cases h
  · obtain ⟨normalized, hn, h⟩ := bind_eq_ok.mp h
    obtain ⟨es, rfl, -⟩ := validateToken_elements hn
    rw [expandTokens_text, ok_bind] at h
    split_ifs at h with hempty
    · cases h
    · cases h
      obtain ⟨v, hv⟩ := Finset.nonempty_iff_ne_empty.mpr hempty
      obtain ⟨e, he, hv⟩ := (mem_foldl_union.mp hv).resolve_left (Finset.notMem_empty v)
      exact ⟨es, rfl, e, he, v, hv⟩

theorem parseField_joined {es : List (Element f)} (h : ∃ e ∈ es, e.values.Nonempty) :
    parseField f (joined es) = .ok (joined es) := by
  obtain ⟨e, he, v, hv⟩ := h
  have hne : es ≠ [] := List.ne_nil_of_mem he
  have hparts : (es.map Element.text).mapM (fun part ↦ validateToken (strip part) f) =
      .ok (es.map Element.text) := by
    refine (mapM_ok (g := id) ?_).trans (by rw [List.map_id])
    simp only [List.mem_map]
    intro t hx
    obtain ⟨e, -, rfl⟩ := hx
    rw [strip_text, validateToken_text, id]
  have hv : es.foldl (fun values e ↦ values ∪ e.values) ∅ ≠ ∅ := by
    refine Finset.nonempty_iff_ne_empty.mp ⟨v, ?_⟩
    exact mem_foldl_union.mpr (.inr ⟨e, he, hv⟩)
  rw [parseField, if_neg (joined_ne_nil hne), splitOn_joined hne, hparts, ok_bind,
    expandTokens_text, ok_bind, if_neg hv]
  rfl

/-- What the parser accepts is the text of a schedule. -/
theorem parse_ok {e : Option Text} {fields : List Text} (h : parseCronExpression e = .ok fields) :
    ∃ s : Schedule, fields = s.fields := by
  cases e with
  | none => cases h
  | some e =>
    simp only [parseCronExpression] at h
    split_ifs at h with hempty hlen
    · match hsplit : split (strip e), not_not.mp hlen with
      | [t₁, t₂, t₃, t₄, t₅], _ =>
        rw [hsplit] at h
        have hall := mapM_eq_ok.mp h
        simp only [Field.names, List.zip_cons_cons, List.zip_nil_right, List.forall₂_cons_left_iff,
          List.forall₂_nil_left_iff] at hall
        obtain ⟨n₁, _, h₁, ⟨n₂, _, h₂, ⟨n₃, _, h₃, ⟨n₄, _, h₄, ⟨n₅, _, h₅, rfl, rfl⟩, rfl⟩, rfl⟩, rfl⟩, rfl⟩ := hall
        obtain ⟨e₁, rfl, hv₁⟩ := parseField_ok h₁
        obtain ⟨e₂, rfl, hv₂⟩ := parseField_ok h₂
        obtain ⟨e₃, rfl, hv₃⟩ := parseField_ok h₃
        obtain ⟨e₄, rfl, hv₄⟩ := parseField_ok h₄
        obtain ⟨e₅, rfl, hv₅⟩ := parseField_ok h₅
        refine ⟨⟨Validator.Field.rec e₁ e₂ e₃ e₄ e₅, fun f ↦ ?_⟩, rfl⟩
        cases f
        exacts [hv₁, hv₂, hv₃, hv₄, hv₅]

theorem fieldText_eq (s : Schedule) (f : Field) : s.fieldText f = joined (s.elements f) := rfl

theorem split_text (s : Schedule) : split (strip s.text) = s.fields := by
  have hmem {t : Text} (ht : t ∈ s.fields) : ∃ f, t = joined (s.elements f) := by
    obtain ⟨f, -, rfl⟩ := List.mem_map.mp ht
    exact ⟨f, rfl⟩
  rw [split_strip]
  refine split_intercalate rfl (fun t ht ↦ ?_) (fun t ht c hc ↦ ?_)
  · obtain ⟨f, rfl⟩ := hmem ht
    exact joined_ne_nil (s.elements_ne_nil f)
  · obtain ⟨f, rfl⟩ := hmem ht
    exact isSpace_of_mem_joined hc

/-- The parser reads the text of a schedule back, so its output is a fixed point. -/
theorem parse_text (s : Schedule) : parseCronExpression (some s.text) = .ok s.fields := by
  have hsplit := split_text s
  have hempty : strip s.text ≠ [] := fun h ↦ by
    rw [h] at hsplit
    simp [split, Schedule.fields, Field.names] at hsplit
  have hlen : ¬ s.fields.length ≠ 5 := by simp [Schedule.fields, Field.names]
  have hzip : Field.names.zip s.fields = Field.names.map fun f ↦ (f, s.fieldText f) := rfl
  simp only [parseCronExpression, if_neg hempty, hsplit, if_neg hlen]
  rw [mapM_eq_ok, hzip, Schedule.fields, List.forall₂_map_left_iff, List.forall₂_map_right_iff,
    List.forall₂_same]
  exact fun f _ ↦ parseField_joined (s.nonempty f)

theorem normalize_ok {e : Option Text} {s : Schedule} (h : parseCronExpression e = .ok s.fields) :
    normalizeCronExpression e = .ok s.text := by rw [normalizeCronExpression, h]; rfl

theorem expandCronField_text (s : Schedule) (f : Field) :
    expandCronField f (s.fieldText f) = .ok (sorted (s.values f)) := by
  have hstrip : (s.elements f).map (strip ∘ Element.text) = (s.elements f).map Element.text :=
    List.map_congr_left fun e _ ↦ strip_text e
  rw [expandCronField, fieldText_eq, splitOn_joined (s.elements_ne_nil f), List.map_map, hstrip,
    expandTokens_text, map_ok, Schedule.values]

end CronPanel.Cron.Grammar
