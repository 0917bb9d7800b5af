import CronPanel.Cron.Wordings

namespace CronPanel.Cron.ClockPhrases

open Library.Strings Library.Ranges Library.Fallible Library.Words Validator Elements Grammar
open Describe Displayable Wordings

section Sentences

theorem words_commas (texts : List Text) : words (commas texts) = texts.flatMap words :=
  words_intercalate texts (by decide) (by decide)

theorem enumerate_wording {texts : List Text} {t : Text} (hplain : ∀ w ∈ texts, Plain w)
    (hmany : texts.length ≠ 1) (h : enumerate texts = .ok t) : words t = enumeration texts := by
  obtain ⟨final, hfinal, h⟩ := bind_eq_ok.mp h
  cases h
  have hlast : texts.getLast? = some final := by
    rw [lastOf] at hfinal
    cases hget : texts.getLast? with
    | none => simp [hget] at hfinal
    | some last => simpa [hget] using hfinal
  have hmem : final ∈ texts := List.mem_of_getLast? hlast
  have hne : ∀ text, texts ≠ [text] := by
    intro text heq
    exact hmany (by rw [heq]; rfl)
  rw [enumeration_many hne, hlast, List.append_assoc, words_append_of_head rfl, words_append_of_last rfl,
    words_commas, flatMap_words fun w hw ↦ hplain w (List.mem_of_mem_dropLast hw),
    words_of_plain (hplain final hmem)]
  rfl

theorem words_decimal (n : ℕ) : words (decimal n) = [decimal n] :=
  words_of_plain (plain_of_isDigits (isDigits_decimal n))

theorem flatMap_decimal (ns : List ℕ) : (ns.map decimal).flatMap words = ns.map decimal := by
  refine flatMap_words fun w hw ↦ ?_
  obtain ⟨n, -, rfl⟩ := List.mem_map.mp hw
  exact plain_of_isDigits (isDigits_decimal n)

theorem flatMap_twoDigits (ns : List ℕ) : (ns.map twoDigits).flatMap words = ns.map twoDigits := by
  refine flatMap_words fun w hw ↦ ?_
  obtain ⟨n, -, rfl⟩ := List.mem_map.mp hw
  exact plain_twoDigits n

end Sentences

section Time

variable {s : Schedule} {t : Text}

theorem values_of_star {f : Field} (h : s.fieldText f = starText) : s.values f = f.allowed := by
  have hcomma : ',' ∉ s.fieldText f := by
    rw [h]
    decide
  obtain ⟨e, htext, hvalues⟩ := field_of_comma_not_mem hcomma
  obtain ⟨hbase, hstep⟩ := text_eq_star.mp (htext.symm.trans h)
  rw [hvalues, Element.values, hbase, hstep]

theorem values_of_step_led {f : Field} (hled : "*/".toList <+: s.fieldText f) {step : ℕ}
    (hstep : int ((s.fieldText f).drop 2) = .ok step) :
    s.values f = f.allowed.filter (step ∣ ·) := by
  obtain ⟨digits, hdigits⟩ := hled
  rw [← hdigits] at hstep
  obtain ⟨hall, -, hvalue⟩ := int_eq_ok.mp hstep
  have hcomma : ',' ∉ s.fieldText f := by
    rw [← hdigits]
    intro hmem
    rcases List.mem_append.mp hmem with hmem | hmem
    · exact absurd hmem (by decide)
    · exact not_mem_of_isDigits hall rfl hmem
  obtain ⟨e, htext, hvalues⟩ := field_of_comma_not_mem hcomma
  rw [← hdigits] at htext
  have hany : e.base = .any := base_any_of_star_mem (htext ▸ List.mem_cons_self)
  obtain ⟨base, step', hb⟩ := e
  obtain rfl : base = .any := hany
  cases step' with
  | none => exact absurd (congrArg List.length htext) (by simp [Element.text, Base.text, starText])
  | some given =>
    have hgiven : digits = given.text := congrArg (List.drop 2) htext
    rw [hvalues, ← hvalue]
    change f.allowed.filter (given.value ∣ ·) = _
    rw [Step.value, ← hgiven]
    rfl

/-- The phrase of the minutes says what they are. -/
theorem minutesPhrase_says (hstar : s.fieldText .minute ≠ starText)
    (h : minutesPhrase (s.fieldText .minute) (sorted (s.values .minute)) = .ok t) :
    ∃ m : Minutes, words t = m.wording ∧ m.values = s.values .minute := by
  unfold minutesPhrase at h
  rw [if_neg hstar] at h
  by_cases hled : "*/".toList.isPrefixOf (s.fieldText .minute)
  · rw [if_pos hled] at h
    obtain ⟨step, hstep, h⟩ := bind_eq_ok.mp h
    cases h
    refine ⟨.each step, ?_, ?_⟩
    · rw [words_append_of_head rfl, words_append_of_last rfl, words_decimal]
      rfl
    · exact (values_of_step_led (List.isPrefixOf_iff_prefix.mp hled) hstep).symm
  · rw [if_neg hled] at h
    split at h
    · cases h
      rename_i minute hminute
      refine ⟨.one minute, ?_, ?_⟩
      · rw [words_append_of_last rfl, words_decimal]
        rfl
      · rw [← sorted_toFinset (s.values .minute), hminute]
        rfl
    · cases h
      refine ⟨.listed (sorted (s.values .minute)), ?_, sorted_toFinset _⟩
      rw [words_append_of_last rfl, words_commas, flatMap_decimal]
      rfl

theorem clock_values {hours minutes times : List ℕ} (hh : hours ≠ []) (hm : minutes ≠ [])
    (hlt : ∀ m ∈ minutes, m < 100)
    (htimes : ∀ v, v ∈ times ↔ ∃ h ∈ hours, ∃ m ∈ minutes, h * 100 + m = v) :
    (Times.clock times).minuteValues = minutes.toFinset ∧
      (Times.clock times).hourValues = hours.toFinset := by
  obtain ⟨h₀, hh₀⟩ := List.exists_mem_of_ne_nil _ hh
  obtain ⟨m₀, hm₀⟩ := List.exists_mem_of_ne_nil _ hm
  constructor
  · ext m
    simp only [Times.minuteValues, List.mem_toFinset, List.mem_map]
    constructor
    · rintro ⟨v, hv, rfl⟩
      obtain ⟨h, -, m, hmem, rfl⟩ := (htimes v).mp hv
      have := hlt m hmem
      rwa [show (h * 100 + m) % 100 = m by omega]
    · intro hmem
      refine ⟨h₀ * 100 + m, (htimes _).mpr ⟨h₀, hh₀, m, hmem, rfl⟩, ?_⟩
      have := hlt m hmem
      omega
  · ext h
    simp only [Times.hourValues, List.mem_toFinset, List.mem_map]
    constructor
    · rintro ⟨v, hv, rfl⟩
      obtain ⟨h, hmem, m, hm, rfl⟩ := (htimes v).mp hv
      have := hlt m hm
      rwa [show (h * 100 + m) / 100 = h by omega]
    · intro hmem
      refine ⟨h * 100 + m₀, (htimes _).mpr ⟨h, hmem, m₀, hm₀, rfl⟩, ?_⟩
      have := hlt m₀ hm₀
      omega

/-- The clock times say which hours and which minutes they are made of. -/
theorem timesPhrase_says {hours minutes : List ℕ} (hh : hours ≠ []) (hm : minutes ≠ [])
    (hlt : ∀ m ∈ minutes, m < 100) (h : timesPhrase hours minutes = .ok t) :
    ∃ times, words t = (Times.clock times).wording ∧
      (Times.clock times).minuteValues = minutes.toFinset ∧
      (Times.clock times).hourValues = hours.toFinset := by
  unfold timesPhrase at h
  extract_lets times at h
  refine ⟨times, ?_, clock_values hh hm hlt fun v ↦ ?_⟩
  · have hplain : ∀ w ∈ times.map clockText, Plain w := by
      intro w hw
      obtain ⟨v, -, rfl⟩ := List.mem_map.mp hw
      exact plain_clockText v
    have hrendered : (times.map fun value ↦
        twoDigits (value / 100) ++ ":".toList ++ twoDigits (value % 100)) = times.map clockText := rfl
    rw [hrendered] at h
    rw [Times.wording]
    split at h
    · rename_i time heq
      cases h
      rw [heq] at hplain ⊢
      rw [words_append_of_last rfl, words_of_plain (hplain time (by simp))]
      rfl
    · rename_i first second heq
      cases h
      rw [heq] at hplain ⊢
      rw [List.append_assoc, List.append_assoc, words_append_of_last rfl, words_append_of_head rfl,
        words_append_of_last rfl, words_of_plain (hplain first (by simp)),
        words_of_plain (hplain second (by simp))]
      rfl
    · rename_i hone htwo
      obtain ⟨texts, htexts, h⟩ := bind_eq_ok.mp h
      cases h
      have hmany : (times.map clockText).length ≠ 1 := by
        intro hlength
        obtain ⟨time, heq⟩ := List.length_eq_one_iff.mp hlength
        exact hone time heq
      rw [words_append_of_last rfl, enumerate_wording hplain hmany htexts]
      rfl
  · simp only [times, List.mem_insertionSort, List.mem_flatMap, List.mem_map]

/-- What a sentence says of the times of a schedule: the minutes are right, and so are the hours
unless every minute is named and no single hour. -/
structure Tells (r : Times) (s : Schedule) : Prop where
  minutes : r.minuteValues = s.values .minute
  hours : r ≠ .everyMinute → r.hourValues = s.values .hour
  dropped : r = .everyMinute → s.fieldText .minute = starText ∧ (s.values .hour).card ≠ 1

theorem hours_said {hours : Finset ℕ} {text : Text}
    (hone : ∀ h, sorted hours = [h] → text = "la ".toList ++ twoDigits h ++ ":00".toList)
    (hmany : (∀ h, sorted hours ≠ [h]) →
      text = "las horas ".toList ++ commas ((sorted hours).map twoDigits)) :
    ∃ r : Hours, words text = r.wording ∧ r.values = hours := by
  by_cases hsingle : ∃ h, sorted hours = [h]
  · obtain ⟨h, heq⟩ := hsingle
    refine ⟨.one h, ?_, ?_⟩
    · rw [hone h heq, List.append_assoc, words_append_of_last rfl,
        words_of_plain ((plain_twoDigits h).append rfl)]
      rfl
    · rw [← sorted_toFinset hours, heq]
      rfl
  · refine ⟨.listed (sorted hours), ?_, sorted_toFinset hours⟩
    rw [hmany (not_exists.mp hsingle), words_append_of_last rfl, words_commas, flatMap_twoDigits]
    rfl

theorem words_everyMinuteOf (hour : ℕ) :
    words ("cada minuto entre las ".toList ++ twoDigits hour ++ ":00 y las ".toList ++
      twoDigits hour ++ ":59".toList) = (Times.everyMinuteOf hour).wording := by
  have hfrom : ":00 y las ".toList = ":00".toList ++ " y las ".toList := rfl
  rw [List.append_assoc, List.append_assoc, List.append_assoc, hfrom, words_append_of_last rfl,
    List.append_assoc, ← List.append_assoc (twoDigits hour), words_append_of_head rfl,
    words_of_plain ((plain_twoDigits hour).append rfl), words_append_of_last rfl,
    words_of_plain ((plain_twoDigits hour).append rfl)]
  rfl

theorem everyMinute_tells (hminute : s.fieldText .minute = starText)
    (hcard : (s.values .hour).card ≠ 1) : Tells .everyMinute s where
  minutes := (values_of_star hminute).symm
  hours he := absurd rfl he
  dropped _ := ⟨hminute, hcard⟩

/-- The times of a description say what the times of its schedule are. -/
theorem timePhrase_says (h : timePhrase (s.fieldText .minute) (s.fieldText .hour)
      (sorted (s.values .minute)) (sorted (s.values .hour)) = .ok t) :
    ∃ r : Times, words t = r.wording ∧ Tells r s := by
  unfold timePhrase at h
  by_cases hboth : s.fieldText .hour = starText ∧ s.fieldText .minute = starText
  · rw [if_pos hboth] at h
    cases h
    have hcard : (s.values .hour).card ≠ 1 := by
      rw [values_of_star hboth.1]
      decide
    exact ⟨.everyMinute, rfl, everyMinute_tells hboth.2 hcard⟩
  rw [if_neg hboth] at h
  by_cases hminute : s.fieldText .minute = starText
  · rw [if_pos hminute] at h
    split at h
    · rename_i hour heq
      cases h
      refine ⟨.everyMinuteOf hour, words_everyMinuteOf hour, (values_of_star hminute).symm,
        fun _ ↦ ?_, fun he ↦ by cases he⟩
      rw [← sorted_toFinset (s.values .hour), heq]
      rfl
    · rename_i hone
      cases h
      have hcard : (s.values .hour).card ≠ 1 := by
        rw [← length_sorted]
        intro hlength
        obtain ⟨hour, heq⟩ := List.length_eq_one_iff.mp hlength
        exact hone hour heq
      exact ⟨.everyMinute, rfl, everyMinute_tells hminute hcard⟩
  rw [if_neg hminute] at h
  split_ifs at h with hfew hhour
  · have hlt : ∀ m ∈ sorted (s.values .minute), m < 100 := by
      intro m hmem
      have hlast : m ≤ 59 := (Field.mem_allowed.mp (mem_allowed_of_mem s hmem)).2
      omega
    obtain ⟨times, hwords, hm, hh⟩ := timesPhrase_says (sorted_values_ne_nil s .hour)
      (sorted_values_ne_nil s .minute) hlt h
    rw [sorted_toFinset] at hm hh
    exact ⟨.clock times, hwords, hm, fun _ ↦ hh, fun he ↦ by cases he⟩
  · obtain ⟨m, hwords, hm⟩ := minutesPhrase_says hminute h
    exact ⟨.minutes m, hwords, hm, fun _ ↦ (values_of_star hhour).symm, fun he ↦ by cases he⟩
  · obtain ⟨text, htext, h⟩ := bind_eq_ok.mp h
    obtain ⟨m, hwords, hm⟩ := minutesPhrase_says hminute htext
    cases h
    have hsay : ∀ hourText, (∃ r : Hours, words hourText = r.wording ∧ r.values = s.values .hour) →
        ∃ r : Times, words (text ++ " de ".toList ++ hourText) = r.wording ∧ Tells r s := by
      intro hourText hsaid
      obtain ⟨r, hr, hvalues⟩ := hsaid
      refine ⟨.minutesOf m r, ?_, hm, fun _ ↦ hvalues, fun he ↦ by cases he⟩
      rw [List.append_assoc, words_append_of_head rfl, words_append_of_last rfl, hwords, hr]
      rfl
    refine hsay _ (hours_said ?_ ?_)
    · intro hour heq
      rw [heq]
    · intro hne
      split
      · rename_i hour heq
        exact absurd heq (hne hour)
      · rfl

end Time

end CronPanel.Cron.ClockPhrases
