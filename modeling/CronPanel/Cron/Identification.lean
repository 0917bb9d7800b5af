import CronPanel.Cron.DayPhrases

namespace CronPanel.Cron.Identification

open Library.Strings Library.Ranges Library.Fallible Library.Words Validator Elements Grammar
open Describe Displayable Wordings ClockPhrases DayPhrases

/-- No field restricts the schedule. -/
def Unrestricted (s : Schedule) : Prop := ∀ f, s.fieldText f = starText

/-- The two schedules restrict the days in the same way, or neither of them rules a day out. -/
def SameDays (s s' : Schedule) : Prop :=
  daysOf s = daysOf s' ∨ ((daysOf s).Everyday ∧ (daysOf s').Everyday)

/-- Every minute of several hours, which differ, on the same days. -/
structure HoursDropped (s s' : Schedule) : Prop where
  minute : s.fieldText .minute = starText ∧ s'.fieldText .minute = starText
  several : (s.values .hour).card ≠ 1 ∧ (s'.values .hour).card ≠ 1
  differ : s.values .hour ≠ s'.values .hour
  restricted : ¬Unrestricted s ∧ ¬Unrestricted s'
  days : SameDays s s'

variable {s s' : Schedule} {e e' : Option Text} {d d' : Text}

theorem unrestricted_iff : Unrestricted s ↔ s.fieldText .month = starText ∧
    s.fieldText .dayOfMonth = starText ∧ s.fieldText .dayOfWeek = starText ∧
    s.fieldText .minute = starText ∧ s.fieldText .hour = starText := by
  constructor
  · intro h
    exact ⟨h .month, h .dayOfMonth, h .dayOfWeek, h .minute, h .hour⟩
  · rintro ⟨hmonth, hdom, hdow, hminute, hhour⟩ f
    cases f <;> assumption

theorem describe_unrestricted (h : parseCronExpression e = .ok s.fields) (hall : Unrestricted s) :
    describeCronExpression e = .ok "Cada minuto".toList := by
  rw [describe_eq h, describeFields, if_pos (unrestricted_iff.mp hall)]

/-- What the describer puts together for a schedule with a restriction. -/
theorem describe_restricted (h : parseCronExpression e = .ok s.fields) (hsome : ¬Unrestricted s) :
    describeCronExpression e = (do
      let timePart ← timePhrase (s.fieldText .minute) (s.fieldText .hour)
          (sorted (s.values .minute))
        (sorted (s.values .hour))
      let dayPart ← describeDays (s.fieldText .dayOfMonth) (s.fieldText .month)
        (s.fieldText .dayOfWeek)
      .ok (strip (dayPart ++ " ".toList ++ timePart))) := by
  rw [describe_eq h, describeFields, if_neg (unrestricted_iff.not.mp hsome)]
  simp only [expandCronField_text, ok_bind]

/-- The words of a description are those of its days and of its times. -/
theorem describe_says (h : parseCronExpression e = .ok s.fields) (hsome : ¬Unrestricted s)
    (hd : describeCronExpression e = .ok d) :
    ∃ r : Times, words d = (daysOf s).wording ++ r.wording ∧ Tells r s := by
  rw [describe_restricted h hsome] at hd
  obtain ⟨timePart, htime, hd⟩ := bind_eq_ok.mp hd
  obtain ⟨dayPart, hday, hd⟩ := bind_eq_ok.mp hd
  cases hd
  obtain ⟨r, hr, htells⟩ := timePhrase_says htime
  refine ⟨r, ?_, htells⟩
  rw [words_strip, List.append_assoc, words_append_of_head rfl, words_append_of_last rfl,
    describeDays_says hday, hr]
  rfl

theorem timePhrase_dropped (hminute : s.fieldText .minute = starText)
    (hseveral : (s.values .hour).card ≠ 1) :
    timePhrase (s.fieldText .minute) (s.fieldText .hour) (sorted (s.values .minute))
      (sorted (s.values .hour)) = .ok "cada minuto".toList := by
  unfold timePhrase
  split_ifs
  · rfl
  · split
    · rename_i hour heq
      rw [← length_sorted, heq] at hseveral
      exact absurd rfl hseveral
    · rfl

theorem restriction_eq {f : Validator.Field} (h : restriction s f = restriction s' f) :
    (s.fieldText f = starText ↔ s'.fieldText f = starText) ∧ s.values f = s'.values f := by
  by_cases hstar : s.fieldText f = starText
  · by_cases hstar' : s'.fieldText f = starText
    · exact ⟨iff_of_true hstar hstar', by rw [values_of_star hstar, values_of_star hstar']⟩
    · rw [restriction_of_star hstar, restriction_of_ne hstar'] at h
      cases h
  · by_cases hstar' : s'.fieldText f = starText
    · rw [restriction_of_ne hstar, restriction_of_star hstar'] at h
      cases h
    · rw [restriction_of_ne hstar, restriction_of_ne hstar'] at h
      exact ⟨iff_of_false hstar hstar', sorted_injective (Option.some.inj h)⟩

theorem star_of_restriction {f : Validator.Field} (h : restriction s f = none) :
    s.fieldText f = starText := by
  by_contra hstar
  rw [restriction_of_ne hstar] at h
  cases h

theorem weekdays_of_everyday (h : (daysOf s).Everyday) :
    s.fieldText .dayOfWeek = starText ∨ sorted (s.values .dayOfWeek) = List.range 7 := by
  by_cases hstar : s.fieldText .dayOfWeek = starText
  · exact .inl hstar
  · have hdays := h.2.2
    rw [daysOf, restriction_of_ne hstar] at hdays
    exact .inr hdays

theorem values_of_everyday (h : (daysOf s).Everyday) {f : Validator.Field}
    (hf : f = .dayOfMonth ∨ f = .month ∨ f = .dayOfWeek) : s.values f = f.allowed := by
  rcases hf with rfl | rfl | rfl
  · exact values_of_star (star_of_restriction h.1)
  · exact values_of_star (star_of_restriction h.2.1)
  · rcases weekdays_of_everyday h with hstar | hall
    · exact values_of_star hstar
    · rw [← sorted_toFinset (s.values .dayOfWeek), hall]
      decide

theorem describeDays_everyday (h : (daysOf s).Everyday) :
    describeDays (s.fieldText .dayOfMonth) (s.fieldText .month) (s.fieldText .dayOfWeek) =
      .ok "Todos los días".toList := by
  have hdom : s.fieldText .dayOfMonth = starText := star_of_restriction h.1
  have hmonth : s.fieldText .month = starText := star_of_restriction h.2.1
  rcases weekdays_of_everyday h with hstar | hall
  · rw [describeDays, if_pos ⟨hdom, hmonth, hstar⟩]
  · rw [describeDays]
    split_ifs with hstar
    · rfl
    · rw [dayParts, if_neg fun hrest ↦ hrest.2.2 hmonth, if_pos ⟨hdom, hmonth⟩,
        expandCronField_text, ok_bind, hall]
      rfl

theorem describeDays_congr (h : SameDays s s') :
    describeDays (s.fieldText .dayOfMonth) (s.fieldText .month) (s.fieldText .dayOfWeek) =
      describeDays (s'.fieldText .dayOfMonth) (s'.fieldText .month) (s'.fieldText .dayOfWeek) := by
  rcases h with h | ⟨h, h'⟩
  · obtain ⟨hdom, hmonth, hdow⟩ := Days.mk.inj h
    obtain ⟨hdom, hdoms⟩ := restriction_eq hdom
    obtain ⟨hmonth, hmonths⟩ := restriction_eq hmonth
    obtain ⟨hdow, hdows⟩ := restriction_eq hdow
    simp only [describeDays, dayParts, domPart, monthPart, dowPart, expandCronField_text, ne_eq,
      hdom, hdoms, hmonth, hmonths, hdow, hdows]
  · rw [describeDays_everyday h, describeDays_everyday h']

/-- Two schedules with dropped hours have one description. -/
theorem HoursDropped.describe_eq (hdropped : HoursDropped s s')
    (h : parseCronExpression e = .ok s.fields) (h' : parseCronExpression e' = .ok s'.fields) :
    describeCronExpression e = describeCronExpression e' := by
  rw [describe_restricted h hdropped.restricted.1, describe_restricted h' hdropped.restricted.2,
    timePhrase_dropped hdropped.minute.1 hdropped.several.1,
    timePhrase_dropped hdropped.minute.2 hdropped.several.2, describeDays_congr hdropped.days]

theorem SameDays.values_eq (h : SameDays s s') {f : Validator.Field}
    (hf : f = .dayOfMonth ∨ f = .month ∨ f = .dayOfWeek) : s.values f = s'.values f := by
  rcases h with h | ⟨h, h'⟩
  · obtain ⟨hdom, hmonth, hdow⟩ := Days.mk.inj h
    rcases hf with rfl | rfl | rfl
    · exact (restriction_eq hdom).2
    · exact (restriction_eq hmonth).2
    · exact (restriction_eq hdow).2
  · rw [values_of_everyday h hf, values_of_everyday h' hf]

/-- What two restricted schedules with one description have in common. -/
theorem same_of_describe_eq (h : parseCronExpression e = .ok s.fields)
    (h' : parseCronExpression e' = .ok s'.fields) (hsome : ¬Unrestricted s)
    (hsome' : ¬Unrestricted s') (hd : describeCronExpression e = .ok d)
    (hd' : describeCronExpression e' = .ok d) :
    SameDays s s' ∧ s.values .minute = s'.values .minute ∧
      (s.values .hour = s'.values .hour ∨ HoursDropped s s') := by
  obtain ⟨r, hr, htells⟩ := describe_says h hsome hd
  obtain ⟨r', hr', htells'⟩ := describe_says h' hsome' hd'
  obtain ⟨hdays, rfl⟩ := split_wording (daysOf_valid s).names.unmarked
    (daysOf_valid s').names.unmarked (hr.symm.trans hr')
  have hsame : SameDays s s' := (daysOf_valid s).wording_inj (daysOf_valid s') hdays
  refine ⟨hsame, htells.minutes.symm.trans htells'.minutes, ?_⟩
  by_cases hevery : r = .everyMinute
  · obtain ⟨hminute, hcard⟩ := htells.dropped hevery
    obtain ⟨hminute', hcard'⟩ := htells'.dropped hevery
    by_cases hhours : s.values .hour = s'.values .hour
    · exact .inl hhours
    · exact .inr ⟨⟨hminute, hminute'⟩, ⟨hcard, hcard'⟩, hhours, ⟨hsome, hsome'⟩, hsame⟩
  · exact .inl ((htells.hours hevery).symm.trans (htells'.hours hevery))

/-- Only a schedule without a restriction is described as one. -/
theorem describe_ne_unrestricted (h : parseCronExpression e = .ok s.fields)
    (hsome : ¬Unrestricted s) :
    describeCronExpression e ≠ .ok "Cada minuto".toList := by
  intro hd
  obtain ⟨r, hr, -⟩ := describe_says h hsome hd
  have hcut : [] ++ Times.everyMinute.wording = (daysOf s).wording ++ r.wording := by
    rw [← hr]
    decide
  obtain ⟨hnil, -⟩ := split_wording (by simp) (daysOf_valid s).names.unmarked hcut
  exact (daysOf_valid s).wording_ne_nil hnil.symm

/-- One description stands for one schedule, but for the dropped hours. -/
theorem values_eq_of_describe_eq (h : parseCronExpression e = .ok s.fields)
    (h' : parseCronExpression e' = .ok s'.fields) (hd : describeCronExpression e = .ok d)
    (hd' : describeCronExpression e' = .ok d) (hnot : ¬HoursDropped s s') (f : Validator.Field) :
    s.values f = s'.values f := by
  by_cases hall : Unrestricted s
  · by_cases hall' : Unrestricted s'
    · rw [values_of_star (hall f), values_of_star (hall' f)]
    · rw [describe_unrestricted h hall] at hd
      exact absurd (hd'.trans hd.symm) (describe_ne_unrestricted h' hall')
  · by_cases hall' : Unrestricted s'
    · rw [describe_unrestricted h' hall'] at hd'
      exact absurd (hd.trans hd'.symm) (describe_ne_unrestricted h hall)
    · obtain ⟨hdays, hminute, hhour⟩ := same_of_describe_eq h h' hall hall' hd hd'
      cases f with
      | minute => exact hminute
      | hour => exact hhour.resolve_right hnot
      | dayOfMonth => exact hdays.values_eq (.inl rfl)
      | month => exact hdays.values_eq (.inr (.inl rfl))
      | dayOfWeek => exact hdays.values_eq (.inr (.inr rfl))

/-- The description of an expression identifies its schedule exactly when it does not drop the
hours of two. -/
theorem description_identifies_iff (h : parseCronExpression e = .ok s.fields)
    (h' : parseCronExpression e' = .ok s'.fields) (hd : describeCronExpression e = .ok d)
    (hd' : describeCronExpression e' = .ok d') :
    (d = d' → ∀ f, expandCronField f (s.fieldText f) = expandCronField f (s'.fieldText f)) ↔
      ¬HoursDropped s s' := by
  simp only [expandCronField_text]
  constructor
  · intro hall hdropped
    have hsame := hdropped.describe_eq h h'
    rw [hd, hd'] at hsame
    have hhour := hall (Except.ok.inj hsame) .hour
    exact hdropped.differ (sorted_injective (Except.ok.inj hhour))
  · rintro hnot rfl f
    rw [values_eq_of_describe_eq h h' hd hd' hnot]

section Sample

theorem parse_two_hours : parseCronExpression (some "* 1,2 * * *".toList) =
    .ok ["*".toList, "1,2".toList, "*".toList, "*".toList, "*".toList] := by decide

theorem parse_two_others : parseCronExpression (some "* 3,4 * * *".toList) =
    .ok ["*".toList, "3,4".toList, "*".toList, "*".toList, "*".toList] := by decide

theorem describe_two_hours : describeCronExpression (some "* 1,2 * * *".toList) =
    .ok "Todos los días cada minuto".toList := by decide

theorem describe_two_others : describeCronExpression (some "* 3,4 * * *".toList) =
    .ok "Todos los días cada minuto".toList := by decide

/-- Every minute of the hours one and two reads as every minute of the hours three and four. -/
theorem two_hours_not_identified :
    ¬∀ (e e' : Option Text) (s s' : Schedule) (d d' : Text),
      parseCronExpression e = .ok s.fields → parseCronExpression e' = .ok s'.fields →
      describeCronExpression e = .ok d → describeCronExpression e' = .ok d' → d = d' →
      ∀ f, expandCronField f (s.fieldText f) = expandCronField f (s'.fieldText f) := by
  intro hall
  obtain ⟨s, hs⟩ := parse_ok parse_two_hours
  obtain ⟨s', hs'⟩ := parse_ok parse_two_others
  have hsame := hall _ _ s s' _ _ (hs ▸ parse_two_hours) (hs' ▸ parse_two_others)
    describe_two_hours describe_two_others rfl .hour
  have hhour : s.fieldText .hour = "1,2".toList := congrArg (List.getD · 1 []) hs.symm
  have hhour' : s'.fieldText .hour = "3,4".toList := congrArg (List.getD · 1 []) hs'.symm
  rw [hhour, hhour'] at hsame
  revert hsame
  decide

theorem description_identifies_iff_two_hours :
    ∃ s s' : Schedule, s.fieldText .hour = "1,2".toList ∧ s'.fieldText .hour = "3,4".toList ∧
      (("Todos los días cada minuto".toList = "Todos los días cada minuto".toList →
        ∀ f, expandCronField f (s.fieldText f) = expandCronField f (s'.fieldText f)) ↔
          ¬HoursDropped s s') := by
  obtain ⟨s, hs⟩ := parse_ok parse_two_hours
  obtain ⟨s', hs'⟩ := parse_ok parse_two_others
  refine ⟨s, s', congrArg (List.getD · 1 []) hs.symm, congrArg (List.getD · 1 []) hs'.symm, ?_⟩
  exact description_identifies_iff (hs ▸ parse_two_hours) (hs' ▸ parse_two_others)
    describe_two_hours describe_two_others

end Sample

end CronPanel.Cron.Identification
