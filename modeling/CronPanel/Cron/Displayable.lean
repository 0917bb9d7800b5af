import Mathlib.Tactic.IntervalCases
import CronPanel.Cron.Describe

namespace CronPanel.Cron.Displayable

open Library.Strings Library.Ranges Library.Fallible Validator Elements Grammar Describe

theorem monthName_ok {n : ℕ} (h : n ∈ Field.month.allowed) : Succeeds (monthName n) := by
  obtain ⟨h₁, h₂⟩ := Field.mem_allowed.mp h
  change 1 ≤ n at h₁
  change n ≤ 12 at h₂
  interval_cases n <;> exact ⟨_, rfl⟩

theorem weekdayName_ok {n : ℕ} (h : n ∈ Field.dayOfWeek.allowed) : Succeeds (weekdayName n) := by
  have h₂ : n ≤ 6 := (Field.mem_allowed.mp h).2
  interval_cases n <;> exact ⟨_, rfl⟩

theorem enumerate_ok {texts : List Text} (h : texts ≠ []) : Succeeds (enumerate texts) := by
  refine Succeeds.bind ⟨texts.getLast h, ?_⟩ fun _ _ ↦ ⟨_, rfl⟩
  rw [lastOf, List.getLast?_eq_getLast_of_ne_nil h]
  rfl

theorem weekdayPhrase_ok {days : List ℕ} (hne : days ≠ [])
    (h : ∀ d ∈ days, d ∈ Field.dayOfWeek.allowed) : Succeeds (weekdayPhrase days) := by
  refine (succeeds_mapM fun d hd ↦ weekdayName_ok (h d hd)).bind fun names hnames ↦ ?_
  have hnames : names ≠ [] := by
    intro heq
    obtain rfl := heq
    exact hne (List.forall₂_nil_right_iff.mp (mapM_eq_ok.mp hnames))
  split_ifs with h₁ h₂ h₃
  · exact ⟨_, rfl⟩
  · exact ⟨_, rfl⟩
  · exact ⟨_, rfl⟩
  · split
    · exact ⟨_, rfl⟩
    · split_ifs <;> exact ⟨_, rfl⟩
    · exact (enumerate_ok hnames).bind fun _ _ ↦ ⟨_, rfl⟩

theorem timesPhrase_ok {hours minutes : List ℕ} (hh : hours ≠ []) (hm : minutes ≠ []) :
    Succeeds (timesPhrase hours minutes) := by
  obtain ⟨h, hh⟩ := List.exists_mem_of_ne_nil _ hh
  obtain ⟨m, hm⟩ := List.exists_mem_of_ne_nil _ hm
  simp only [timesPhrase]
  split
  · exact ⟨_, rfl⟩
  · exact ⟨_, rfl⟩
  · refine (enumerate_ok ?_).bind fun _ _ ↦ ⟨_, rfl⟩
    refine List.ne_nil_of_mem (List.mem_map.mpr ⟨h * 100 + m, ?_, rfl⟩)
    rw [List.mem_insertionSort]
    exact List.mem_flatMap.mpr ⟨h, hh, List.mem_map.mpr ⟨m, hm, rfl⟩⟩

section Days

variable (s : Schedule)

theorem sorted_values_ne_nil (f : Field) :
    sorted (s.values f) ≠ [] := sorted_ne_nil (s.values_nonempty f)

theorem mem_allowed_of_mem {f : Field} {v : ℕ} (h : v ∈ sorted (s.values f)) : v ∈ f.allowed :=
  s.values_subset f (mem_sorted.mp h)

theorem monthNames_ok : Succeeds ((sorted (s.values .month)).mapM monthName) :=
  succeeds_mapM fun _ h ↦ monthName_ok (mem_allowed_of_mem s h)

theorem weekdays_ok : Succeeds (weekdayPhrase (sorted (s.values .dayOfWeek))) :=
  weekdayPhrase_ok (sorted_values_ne_nil s _) fun _ h ↦ mem_allowed_of_mem s h

theorem domPart_ok : Succeeds (domPart (s.fieldText .dayOfMonth)) := by
  simp only [domPart, expandCronField_text, ok_bind]
  split_ifs
  · exact ⟨_, rfl⟩
  · split <;> exact ⟨_, rfl⟩

theorem monthPart_ok : Succeeds (monthPart (s.fieldText .month)) := by
  simp only [monthPart, expandCronField_text, ok_bind]
  split_ifs
  · exact ⟨_, rfl⟩
  · exact (monthNames_ok s).bind fun _ _ ↦ ⟨_, rfl⟩

theorem dowPart_ok : Succeeds (dowPart (s.fieldText .dayOfWeek)) := by
  simp only [dowPart, expandCronField_text, ok_bind]
  split_ifs
  · exact ⟨_, rfl⟩
  · exact (weekdays_ok s).bind fun _ _ ↦ ⟨_, rfl⟩

theorem describeDays_ok :
    Succeeds (describeDays (s.fieldText .dayOfMonth) (s.fieldText .month) (s.fieldText .dayOfWeek)) := by
  unfold describeDays
  split_ifs with hall
  · exact ⟨_, rfl⟩
  refine Succeeds.bind ?_ fun _ _ ↦ ⟨_, rfl⟩
  simp only [dayParts, expandCronField_text, ok_bind]
  split_ifs with hmonth hdow hdom
  · refine (monthNames_ok s).bind fun names _ ↦ ?_
    split <;> exact ⟨_, rfl⟩
  · exact (weekdays_ok s).bind fun _ _ ↦ ⟨_, rfl⟩
  · split <;> exact ⟨_, rfl⟩
  · refine (domPart_ok s).bind fun days _ ↦ ?_
    exact (monthPart_ok s).bind fun months _ ↦ (dowPart_ok s).bind fun _ _ ↦ ⟨_, rfl⟩

end Days

section Minutes

variable {f : Field}

theorem base_any_of_star_mem {e : Element f} (h : '*' ∈ e.text) : e.base = .any := by
  obtain ⟨base, step, hb⟩ := e
  have hbase : base = .any ∨ '*' ∉ base.text := by
    cases base with
    | any => exact .inl rfl
    | single n => exact .inr (not_mem_decimal n rfl)
    | range a b => exact .inr (by simp [Base.text, not_mem_decimal])
  refine hbase.resolve_right fun hstar ↦ ?_
  cases step with
  | none => exact hstar h
  | some s =>
    refine (List.mem_append.mp h).elim hstar fun hm ↦ ?_
    refine (List.mem_cons.mp hm).elim (by decide) ?_
    exact not_mem_of_isDigits s.digits rfl

theorem int_after_star_slash {e : Element f} (h : "*/".toList <+: e.text) :
    Succeeds (int (e.text.drop 2)) := by
  have hany : e.base = .any := base_any_of_star_mem (h.mem List.mem_cons_self)
  obtain ⟨base, step, hb⟩ := e
  obtain rfl : base = .any := hany
  cases step with
  | none => exact absurd h.length_le (by simp [Element.text, Base.text, starText])
  | some s => exact ⟨s.value, int_eq_ok.mpr ⟨s.digits, s.length_le, rfl⟩⟩

theorem eq_singleton_of_comma_not_mem {es : List (Element f)} (hne : es ≠ [])
    (h : ',' ∉ joined es) : ∃ e : Element f, es = [e] := by
  match es, hne with
  | [e], _ => exact ⟨e, rfl⟩
  | e :: e' :: es, _ => exact absurd (by simp [joined, List.intercalate]) h

/-- A field without a comma is one element. -/
theorem field_of_comma_not_mem {s : Schedule} (h : ',' ∉ s.fieldText f) :
    ∃ e : Element f, s.fieldText f = e.text ∧ s.values f = e.values := by
  obtain ⟨e, he⟩ := eq_singleton_of_comma_not_mem (s.elements_ne_nil f) h
  refine ⟨e, ?_, ?_⟩
  · simp [fieldText_eq, he, joined]
  · simp [Schedule.values, he]

theorem minutesPhrase_ok {s : Schedule} {minutes : List ℕ}
    (h : ¬("*/".toList <+: s.fieldText .minute ∧ ',' ∈ s.fieldText .minute)) :
    Succeeds (minutesPhrase (s.fieldText .minute) minutes) := by
  unfold minutesPhrase
  split_ifs with hstar hled
  · exact ⟨_, rfl⟩
  · rw [List.isPrefixOf_iff_prefix] at hled
    obtain ⟨e, he, -⟩ := field_of_comma_not_mem fun hm ↦ h ⟨hled, hm⟩
    rw [he] at hled ⊢
    exact (int_after_star_slash hled).bind fun _ _ ↦ ⟨_, rfl⟩
  · split <;> exact ⟨_, rfl⟩

/-- What follows the slash of a list that begins with a step over all minutes is the
rest of the list, and no number. -/
theorem minutesPhrase_led {s : Schedule} {minutes : List ℕ}
    (h : "*/".toList <+: s.fieldText .minute ∧ ',' ∈ s.fieldText .minute) :
    minutesPhrase (s.fieldText .minute) minutes = .error .valueError := by
  obtain ⟨hled, hcomma⟩ := h
  have hstar : s.fieldText .minute ≠ starText := fun he ↦ by
    rw [he] at hcomma
    exact absurd hcomma (by decide)
  have hdrop : ',' ∈ (s.fieldText .minute).drop 2 := by
    obtain ⟨t, ht⟩ := hled
    rw [← ht] at hcomma ⊢
    simpa using hcomma
  have hint : int ((s.fieldText .minute).drop 2) = .error .valueError := by
    have hdigits : ¬isDigits ((s.fieldText .minute).drop 2) := fun hd ↦
      not_mem_of_isDigits hd rfl hdrop
    rw [int, int?, if_neg fun hd ↦ hdigits hd.1]
    rfl
  unfold minutesPhrase
  rw [if_neg hstar, if_pos (List.isPrefixOf_iff_prefix.mpr hled), hint]
  rfl

end Minutes

/-- The minutes are a list that begins with a step over all of them, and the clock
times of a day are not enumerated. -/
def StepLedList (s : Schedule) : Prop :=
  ("*/".toList <+: s.fieldText .minute ∧ ',' ∈ s.fieldText .minute) ∧
    (s.fieldText .hour = starText ∨ 4 < (s.values .hour).card ∨ 4 < (s.values .minute).card)

instance (s : Schedule) : Decidable (StepLedList s) := by
  unfold StepLedList
  infer_instance

section Time

variable {s : Schedule}

theorem StepLedList.minute_ne_star (h : StepLedList s) :
    s.fieldText .minute ≠ starText := fun he ↦ by
  have hm : ',' ∈ starText := he ▸ h.1.2
  exact absurd hm (by decide)

theorem timePhrase_ok (h : ¬StepLedList s) :
    Succeeds (timePhrase (s.fieldText .minute) (s.fieldText .hour) (sorted (s.values .minute))
      (sorted (s.values .hour))) := by
  unfold timePhrase
  split_ifs with hboth hminute hfew hhour
  · exact ⟨_, rfl⟩
  · split <;> exact ⟨_, rfl⟩
  · exact timesPhrase_ok (sorted_values_ne_nil s .hour) (sorted_values_ne_nil s .minute)
  · exact minutesPhrase_ok fun hled ↦ h ⟨hled, .inl hhour⟩
  · have hmany : 4 < (s.values .hour).card ∨ 4 < (s.values .minute).card := by
      simp only [length_sorted] at hfew
      by_contra hmany
      exact hfew ⟨by omega, by omega, hhour, hminute⟩
    exact (minutesPhrase_ok fun hled ↦ h ⟨hled, .inr hmany⟩).bind fun _ _ ↦ ⟨_, rfl⟩

theorem timePhrase_led (h : StepLedList s) :
    timePhrase (s.fieldText .minute) (s.fieldText .hour) (sorted (s.values .minute))
      (sorted (s.values .hour)) = .error .valueError := by
  unfold timePhrase
  split_ifs with hboth hminute hfew hhour
  · exact absurd hboth.2 h.minute_ne_star
  · exact absurd hminute h.minute_ne_star
  · simp only [length_sorted] at hfew
    rcases h.2 with hstar | hmany | hmany
    · exact absurd hstar hfew.2.2.1
    all_goals omega
  · exact minutesPhrase_led h.1
  · rw [minutesPhrase_led h.1]
    rfl

theorem describe_eq {e : Option Text} (h : parseCronExpression e = .ok s.fields) :
    describeCronExpression e = describeFields (s.fieldText .minute) (s.fieldText .hour)
      (s.fieldText .dayOfMonth) (s.fieldText .month) (s.fieldText .dayOfWeek) := by
  rw [describeCronExpression, h, ok_bind]
  rfl

theorem describe_ok {e : Option Text} (h : parseCronExpression e = .ok s.fields)
    (hled : ¬StepLedList s) : Succeeds (describeCronExpression e) := by
  rw [describe_eq h]
  unfold describeFields
  split_ifs
  · exact ⟨_, rfl⟩
  · simp only [expandCronField_text, ok_bind]
    exact (timePhrase_ok hled).bind fun _ _ ↦ (describeDays_ok s).bind fun _ _ ↦ ⟨_, rfl⟩

theorem describe_led {e : Option Text} (h : parseCronExpression e = .ok s.fields)
    (hled : StepLedList s) : describeCronExpression e = .error .valueError := by
  rw [describe_eq h]
  unfold describeFields
  split_ifs with hall
  · exact absurd hall.2.2.2.1 hled.minute_ne_star
  · simp only [expandCronField_text, ok_bind, timePhrase_led hled]
    rfl

/-- The describer returns on an accepted expression unless its minutes are such a list. -/
theorem describe_ok_iff {e : Option Text} (h : parseCronExpression e = .ok s.fields) :
    Succeeds (describeCronExpression e) ↔ ¬StepLedList s := by
  refine ⟨fun hd hled ↦ ?_, describe_ok h⟩
  rw [describe_led h hled] at hd
  exact not_succeeds_error _ hd

end Time

end CronPanel.Cron.Displayable
