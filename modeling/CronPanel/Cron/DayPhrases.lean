import CronPanel.Cron.ClockPhrases

namespace CronPanel.Cron.DayPhrases

open Library.Strings Library.Ranges Library.Fallible Library.Words Validator Elements Grammar
open Describe Displayable Wordings ClockPhrases

/-- The days of a schedule, field by field where it restricts them. -/
structure Days where
  doms : Option (List ℕ)
  months : Option (List ℕ)
  weekdays : Option (List ℕ)

def monthText (month : ℕ) : Text := (monthName month).toOption.getD []

def monthIndex (word : Text) : ℕ := ((List.range' 1 12).map monthText).idxOf word + 1

def isMonth (word : Text) : Bool := ((List.range' 1 12).map monthText).contains word

/-- The words that are neither numbers nor months nor markers. -/
def isQuiet (word : Text) : Bool := !isDigits word && !isMonth word && !isMarker word

def weekdayWording (days : List ℕ) : List Text := (weekdayPhrase days).toOption.elim [] words

def weekdayIndex (word : Text) : Option ℕ :=
  (List.range 7).find? fun day ↦
    let name := (weekdayName day).toOption.getD []
    word == name || word == pluralWeekday name

/-- The weekdays that a wording names. -/
def readWeekdays (wording : List Text) : List ℕ :=
  if wording = ["todos".toList, "los".toList, "días".toList] then List.range 7
  else if wording = ["los".toList, "fines".toList, "de".toList, "semana".toList] then [0, 6]
  else
    match wording.filterMap weekdayIndex with
    | [first, last] =>
      if wording.contains "a".toList then List.range' first (last - first + 1) else [first, last]
    | days => days

def domWording : List ℕ → List Text
  | [day] => ["el".toList, "día".toList, decimal day]
  | days => "los".toList :: "días".toList :: days.map decimal

def monthsWording : List ℕ → List Text
  | [month] => [monthText month]
  | months => "los".toList :: "meses".toList :: months.map monthText

namespace Days

def wording (d : Days) : List Text :=
  match d.doms, d.months, d.weekdays with
  | none, none, none => ["todos".toList, "los".toList, "días".toList]
  | none, some months, none =>
    ["todos".toList, "los".toList, "días".toList, "de".toList] ++ monthsWording months
  | some doms, none, none => domWording doms ++ ["de".toList, "cada".toList, "mes".toList]
  | doms, months, weekdays =>
    doms.elim [] domWording ++ (months.elim [] (List.map monthText) ++
      weekdays.elim [] weekdayWording)

structure Valid (d : Days) : Prop where
  doms : ∀ days, d.doms = some days → days ≠ []
  months : ∀ months, d.months = some months → months ≠ [] ∧ ∀ m ∈ months, m ∈ List.range' 1 12
  weekdays : ∀ days, d.weekdays = some days → days ≠ [] ∧ days ∈ (List.range 7).sublists

/-- No field restricts the days, as far as a sentence tells. -/
def Everyday (d : Days) : Prop :=
  d.doms = none ∧ d.months = none ∧ d.weekdays.getD (List.range 7) = List.range 7

end Days

section Vocabulary

theorem monthText_facts : ∀ m ∈ List.range' 1 12, monthIndex (monthText m) = m ∧
    isMonth (monthText m) ∧ isDigits (monthText m) = false ∧ isMarker (monthText m) = false ∧
    Plain (monthText m) ∧ monthName m = .ok (monthText m) ∧ monthText m ≠ "todos".toList := by
  decide +kernel

/-- A wording of some weekdays is quiet and names them. -/
def wordsWeekdays (days : List ℕ) : Bool :=
  match weekdayPhrase days with
  | .ok phrase =>
    !phrase.isEmpty && (words phrase).all isQuiet && readWeekdays (words phrase) == days
  | .error _ => false

theorem wordsWeekdays_of_sublist :
    ∀ days ∈ (List.range 7).sublists, days ≠ [] → wordsWeekdays days := by
  decide +kernel

variable {days : List ℕ}

theorem weekdays_worded (h : days ∈ (List.range 7).sublists) (hne : days ≠ []) :
    ∃ phrase, weekdayPhrase days = .ok phrase ∧ phrase ≠ [] ∧ (words phrase).all isQuiet ∧
      readWeekdays (words phrase) = days := by
  have hwords := wordsWeekdays_of_sublist days h hne
  unfold wordsWeekdays at hwords
  cases hphrase : weekdayPhrase days with
  | error e => simp [hphrase] at hwords
  | ok phrase =>
    simp only [hphrase, Bool.and_eq_true, Bool.not_eq_true', List.isEmpty_eq_false_iff,
      beq_iff_eq] at hwords
    exact ⟨phrase, rfl, hwords.1.1, hwords.1.2, hwords.2⟩

theorem weekdayWording_eq {phrase : Text} (h : weekdayPhrase days = .ok phrase) :
    weekdayWording days = words phrase := by
  rw [weekdayWording, h]
  rfl

theorem weekdayWording_facts (h : days ∈ (List.range 7).sublists) (hne : days ≠ []) :
    (weekdayWording days).all isQuiet ∧ readWeekdays (weekdayWording days) = days := by
  obtain ⟨phrase, hphrase, -, hquiet, hread⟩ := weekdays_worded h hne
  rw [weekdayWording_eq hphrase]
  exact ⟨hquiet, hread⟩

theorem isMonth_of_isDigits {w : Text} (h : isDigits w) : isMonth w = false := by
  rw [isMonth, List.contains_eq_mem, decide_eq_false_iff_not, List.mem_map]
  rintro ⟨m, hm, rfl⟩
  have hdigits := (monthText_facts m hm).2.2.1
  rw [h] at hdigits
  cases hdigits

end Vocabulary

/-- The numbers and the months among the words of a phrase without a marker. -/
structure Names (wording : List Text) (numbers months : List ℕ) : Prop where
  numbers : wording.filter isDigits = numbers.map decimal
  months : wording.filter isMonth = months.map monthText
  unmarked : ∀ w ∈ wording, ¬isMarker w

section Readings

variable {ws ws' : List Text} {ns ns' ms ms' : List ℕ}

theorem Names.append (h : Names ws ns ms) (h' : Names ws' ns' ms') :
    Names (ws ++ ws') (ns ++ ns') (ms ++ ms') where
  numbers := by rw [List.filter_append, h.numbers, h'.numbers, List.map_append]
  months := by rw [List.filter_append, h.months, h'.months, List.map_append]
  unmarked w hw := (List.mem_append.mp hw).elim (h.unmarked w) (h'.unmarked w)

theorem names_of_quiet (ws : List Text) (h : ws.all isQuiet) : Names ws [] [] := by
  simp only [List.all_eq_true, isQuiet, Bool.and_eq_true, Bool.not_eq_true'] at h
  refine ⟨?_, ?_, fun w hw ↦ ?_⟩
  · exact List.filter_eq_nil_iff.mpr fun w hw ↦ by simp [(h w hw).1.1]
  · exact List.filter_eq_nil_iff.mpr fun w hw ↦ by simp [(h w hw).1.2]
  · simp [(h w hw).2]

theorem names_decimal (ns : List ℕ) : Names (ns.map decimal) ns [] := by
  have hdigits : ∀ w ∈ ns.map decimal, isDigits w := by
    intro w hw
    obtain ⟨n, -, rfl⟩ := List.mem_map.mp hw
    exact isDigits_decimal n
  refine ⟨List.filter_eq_self.mpr hdigits, ?_, fun w hw ↦ ?_⟩
  · exact List.filter_eq_nil_iff.mpr fun w hw ↦ by simp [isMonth_of_isDigits (hdigits w hw)]
  · simp [isMarker_of_isDigits (hdigits w hw)]

theorem names_monthText (h : ∀ m ∈ ms, m ∈ List.range' 1 12) : Names (ms.map monthText) [] ms := by
  have hfacts : ∀ w ∈ ms.map monthText, isMonth w ∧ isDigits w = false ∧ isMarker w = false := by
    intro w hw
    obtain ⟨m, hm, rfl⟩ := List.mem_map.mp hw
    obtain ⟨-, hmonth, hdigits, hmarker, -⟩ := monthText_facts m (h m hm)
    exact ⟨hmonth, hdigits, hmarker⟩
  refine ⟨?_, List.filter_eq_self.mpr fun w hw ↦ (hfacts w hw).1, fun w hw ↦ ?_⟩
  · exact List.filter_eq_nil_iff.mpr fun w hw ↦ by simp [(hfacts w hw).2.1]
  · simp [(hfacts w hw).2.2]

theorem names_domWording (ns : List ℕ) : Names (domWording ns) ns [] := by
  match ns with
  | [] => exact names_of_quiet _ rfl
  | [n] => exact (names_of_quiet ["el".toList, "día".toList] rfl).append (names_decimal [n])
  | m :: n :: ns =>
    exact (names_of_quiet ["los".toList, "días".toList] rfl).append (names_decimal (m :: n :: ns))

theorem names_monthsWording (h : ∀ m ∈ ms, m ∈ List.range' 1 12) :
    Names (monthsWording ms) [] ms := by
  match ms with
  | [] => exact names_of_quiet _ rfl
  | [m] => exact names_monthText h
  | m :: n :: ms => exact (names_of_quiet ["los".toList, "meses".toList] rfl).append (names_monthText h)

variable {d d' : Days}

/-- A wording names the days of the month and the months that it stands for. -/
theorem Days.Valid.names (h : d.Valid) :
    Names d.wording (d.doms.getD []) (d.months.getD []) := by
  obtain ⟨doms, months, weekdays⟩ := d
  have hmonths : Names (months.elim [] (List.map monthText)) [] (months.getD []) := by
    cases months with
    | none => exact names_of_quiet _ rfl
    | some months => exact names_monthText (h.months months rfl).2
  have hweekdays : Names (weekdays.elim [] weekdayWording) [] [] := by
    cases weekdays with
    | none => exact names_of_quiet _ rfl
    | some days =>
      obtain ⟨hne, hsub⟩ := h.weekdays days rfl
      exact names_of_quiet _ (weekdayWording_facts hsub hne).1
  have hdoms : Names (doms.elim [] domWording) (doms.getD []) [] := by
    cases doms with
    | none => exact names_of_quiet _ rfl
    | some days => exact names_domWording days
  have hall := hdoms.append (hmonths.append hweekdays)
  simp only [List.append_nil, List.nil_append] at hall
  cases doms with
  | none =>
    cases months with
    | none =>
      cases weekdays with
      | none => exact names_of_quiet _ rfl
      | some days => exact hall
    | some months =>
      cases weekdays with
      | none =>
        refine (names_of_quiet ["todos".toList, "los".toList, "días".toList, "de".toList]
          rfl).append (names_monthsWording (h.months months rfl).2)
      | some days => exact hall
  | some doms =>
    cases months with
    | none =>
      cases weekdays with
      | none =>
        have hrest := (names_domWording doms).append
          (names_of_quiet ["de".toList, "cada".toList, "mes".toList] rfl)
        rwa [List.append_nil] at hrest
      | some days => exact hall
    | some months => exact hall

theorem decimals_injective : Function.Injective (List.map decimal) :=
  List.map_injective_iff.mpr fun _ _ ↦ decimal_inj

theorem monthTexts_inj (h : ∀ m ∈ ms, m ∈ List.range' 1 12) (h' : ∀ m ∈ ms', m ∈ List.range' 1 12)
    (heq : ms.map monthText = ms'.map monthText) : ms = ms' := by
  have hread {ms : List ℕ} (h : ∀ m ∈ ms, m ∈ List.range' 1 12) :
      (ms.map monthText).map monthIndex = ms := by
    rw [List.map_map]
    conv_rhs => rw [← List.map_id ms]
    exact List.map_congr_left fun m hm ↦ (monthText_facts m (h m hm)).1
  rw [← hread h, ← hread h', heq]

theorem weekdayWording_inj {days days' : List ℕ} (h : days ∈ (List.range 7).sublists)
    (hne : days ≠ []) (h' : days' ∈ (List.range 7).sublists) (hne' : days' ≠ [])
    (heq : weekdayWording days = weekdayWording days') : days = days' := by
  rw [← (weekdayWording_facts h hne).2, ← (weekdayWording_facts h' hne').2, heq]

theorem option_eq_of_getD {a b : Option (List ℕ)} (ha : ∀ ns, a = some ns → ns ≠ [])
    (hb : ∀ ns, b = some ns → ns ≠ []) (h : a.getD [] = b.getD []) : a = b := by
  cases a with
  | none =>
    cases b with
    | none => rfl
    | some ns => exact absurd h.symm (hb ns rfl)
  | some ms =>
    cases b with
    | none => exact absurd h (ha ms rfl)
    | some ns => exact congrArg some h

theorem everyday_wording : weekdayWording (List.range 7) = ["todos".toList, "los".toList, "días".toList] := by
  decide

theorem Days.Valid.months_mem (h : d.Valid) : ∀ m ∈ d.months.getD [], m ∈ List.range' 1 12 := by
  cases hmonths : d.months with
  | none => exact fun m hm ↦ absurd hm (List.not_mem_nil)
  | some months => exact (h.months months hmonths).2

theorem Days.Valid.weekdays_getD (h : d.Valid) :
    d.weekdays.getD (List.range 7) ∈ (List.range 7).sublists ∧
      d.weekdays.getD (List.range 7) ≠ [] := by
  cases hdays : d.weekdays with
  | none => exact ⟨List.mem_sublists.mpr (List.Sublist.refl _), by decide⟩
  | some days => exact (h.weekdays days hdays).symm

theorem wording_of_weekdays (weekdays : Option (List ℕ)) :
    Days.wording ⟨none, none, weekdays⟩ = weekdayWording (weekdays.getD (List.range 7)) := by
  cases weekdays with
  | none => exact everyday_wording.symm
  | some days => rfl

theorem wording_of_months (months : List ℕ) : Days.wording ⟨none, some months, none⟩ =
    ["todos".toList, "los".toList, "días".toList, "de".toList] ++ monthsWording months := rfl

theorem wording_of_doms (doms : List ℕ) : Days.wording ⟨some doms, none, none⟩ =
    domWording doms ++ ["de".toList, "cada".toList, "mes".toList] := rfl

theorem wording_of_some (doms months : Option (List ℕ)) (days : List ℕ) :
    Days.wording ⟨doms, months, some days⟩ = doms.elim [] domWording ++
      (months.elim [] (List.map monthText) ++ weekdayWording days) := by
  cases doms <;> cases months <;> rfl

theorem Days.Valid.wording_ne_nil (h : d.Valid) : d.wording ≠ [] := by
  intro heq
  have hnames := h.names
  rw [heq] at hnames
  have hdoms : d.doms = none :=
    option_eq_of_getD h.doms (by simp) (decimals_injective hnames.numbers.symm)
  have hmonths : d.months = none := by
    refine option_eq_of_getD (fun ms hms ↦ (h.months ms hms).1) (by simp) ?_
    exact (List.map_eq_nil_iff.mp hnames.months.symm)
  obtain ⟨doms, months, weekdays⟩ := d
  obtain rfl : doms = none := hdoms
  obtain rfl : months = none := hmonths
  obtain ⟨hsub, hne⟩ := h.weekdays_getD
  have hread := (weekdayWording_facts hsub hne).2
  rw [wording_of_weekdays] at heq
  rw [heq] at hread
  exact hne (hread.symm.trans (by decide))

/-- Next to another field the weekdays are named if they are restricted. -/
theorem Days.Valid.wording_ne {doms months : Option (List ℕ)} {days : List ℕ}
    (h : Days.Valid ⟨doms, months, some days⟩) (hsome : ¬(doms = none ∧ months = none)) :
    Days.wording ⟨doms, months, none⟩ ≠ Days.wording ⟨doms, months, some days⟩ := by
  obtain ⟨hne, hsub⟩ := h.weekdays days rfl
  have hread := (weekdayWording_facts hsub hne).2
  rw [wording_of_some]
  intro heq
  cases doms with
  | none =>
    cases months with
    | none => exact hsome ⟨rfl, rfl⟩
    | some months =>
      obtain ⟨hnil, hmem⟩ := h.months months rfl
      cases months with
      | nil => exact hnil rfl
      | cons m ms =>
        have hhead : "todos".toList = monthText m := (List.cons.inj heq).1
        exact (monthText_facts m (hmem m List.mem_cons_self)).2.2.2.2.2.2 hhead.symm
  | some doms =>
    cases months with
    | none =>
      have hcancel : ["de".toList, "cada".toList, "mes".toList] = weekdayWording days :=
        List.append_cancel_left heq
      rw [← hcancel] at hread
      exact hne (hread.symm.trans (by decide))
    | some months =>
      have hcancel : [] = weekdayWording days :=
        List.append_cancel_left (List.append_cancel_left heq)
      rw [← hcancel] at hread
      exact hne (hread.symm.trans (by decide))

/-- The wording tells which days are meant. -/
theorem Days.Valid.wording_inj (h : d.Valid) (h' : d'.Valid) (heq : d.wording = d'.wording) :
    d = d' ∨ (d.Everyday ∧ d'.Everyday) := by
  have hnames := h.names
  rw [heq] at hnames
  have hdoms : d.doms = d'.doms := by
    refine option_eq_of_getD h.doms h'.doms (decimals_injective ?_)
    exact hnames.numbers.symm.trans h'.names.numbers
  have hmonths : d.months = d'.months := by
    refine option_eq_of_getD (fun ms hms ↦ (h.months ms hms).1)
      (fun ms hms ↦ (h'.months ms hms).1) ?_
    exact monthTexts_inj h.months_mem h'.months_mem (hnames.months.symm.trans h'.names.months)
  obtain ⟨doms, months, weekdays⟩ := d
  obtain ⟨doms', months', weekdays'⟩ := d'
  obtain rfl : doms = doms' := hdoms
  obtain rfl : months = months' := hmonths
  by_cases hnone : doms = none ∧ months = none
  · obtain ⟨rfl, rfl⟩ := hnone
    rw [wording_of_weekdays, wording_of_weekdays] at heq
    obtain ⟨hsub, hne⟩ := h.weekdays_getD
    obtain ⟨hsub', hne'⟩ := h'.weekdays_getD
    have hdays : weekdays.getD (List.range 7) = weekdays'.getD (List.range 7) :=
      weekdayWording_inj hsub hne hsub' hne' heq
    cases weekdays with
    | none => exact .inr ⟨⟨rfl, rfl, rfl⟩, rfl, rfl, hdays.symm⟩
    | some days =>
      cases weekdays' with
      | none => exact .inr ⟨⟨rfl, rfl, hdays⟩, rfl, rfl, rfl⟩
      | some days' => exact .inl (congrArg (Days.mk none none ∘ some) hdays)
  · left
    cases weekdays with
    | none =>
      cases weekdays' with
      | none => rfl
      | some days => exact absurd heq (h'.wording_ne hnone)
    | some days =>
      cases weekdays' with
      | none => exact absurd heq.symm (h.wording_ne hnone)
      | some days' =>
        obtain ⟨hne, hsub⟩ := h.weekdays days rfl
        obtain ⟨hne', hsub'⟩ := h'.weekdays days' rfl
        rw [wording_of_some, wording_of_some, List.append_cancel_left_eq,
          List.append_cancel_left_eq] at heq
        rw [weekdayWording_inj hsub hne hsub' hne' heq]

end Readings

section Description

variable (s : Schedule) (f : Field)

def restriction : Option (List ℕ) :=
  if s.fieldText f = starText then none else some (sorted (s.values f))

def daysOf : Days := ⟨restriction s .dayOfMonth, restriction s .month, restriction s .dayOfWeek⟩

variable {s f}

theorem restriction_of_star (h : s.fieldText f = starText) : restriction s f = none := if_pos h

theorem restriction_of_ne (h : s.fieldText f ≠ starText) :
    restriction s f = some (sorted (s.values f)) := if_neg h

theorem restriction_eq_some {vs : List ℕ} (h : restriction s f = some vs) :
    vs = sorted (s.values f) := by
  unfold restriction at h
  split_ifs at h
  exact (Option.some.inj h).symm

theorem sorted_mem_sublists {n : ℕ} {values : Finset ℕ} (h : ∀ v ∈ values, v < n) :
    sorted values ∈ (List.range n).sublists := by
  have hfilter : sorted values = (List.range n).filter (· ∈ values) := by
    refine (sorted_pairwise values).eq_of_mem_iff (List.pairwise_lt_range.filter _) fun v ↦ ?_
    rw [mem_sorted, List.mem_filter, List.mem_range, decide_eq_true_eq]
    exact ⟨fun hv ↦ ⟨h v hv, hv⟩, And.right⟩
  rw [hfilter, List.mem_sublists]
  exact List.filter_sublist

theorem months_mem (s : Schedule) : ∀ m ∈ sorted (s.values .month), m ∈ List.range' 1 12 := by
  intro m hm
  obtain ⟨h₁, h₂⟩ := Field.mem_allowed.mp (mem_allowed_of_mem s hm)
  change 1 ≤ m at h₁
  change m ≤ 12 at h₂
  rw [List.mem_range'_1]
  omega

theorem daysOf_valid (s : Schedule) : (daysOf s).Valid where
  doms days h := restriction_eq_some h ▸ sorted_values_ne_nil s _
  months months h := by
    rw [restriction_eq_some h]
    exact ⟨sorted_values_ne_nil s _, months_mem s⟩
  weekdays days h := by
    rw [restriction_eq_some h]
    refine ⟨sorted_values_ne_nil s _, sorted_mem_sublists fun v hv ↦ ?_⟩
    have hle : v ≤ 6 := (Field.mem_allowed.mp (s.values_subset _ hv)).2
    omega

theorem words_capitalize (t : Text) : words (capitalize t) = words t := by
  cases t with
  | nil => rfl
  | cons c t => exact words_toUpper_cons c t

theorem words_parts (parts : List Text) :
    words (capitalize (" ".toList.intercalate (parts.filter (fun part ↦ !part.isEmpty)))) =
      parts.flatMap words := by
  rw [words_capitalize, words_intercalate _ (by decide) rfl]
  induction parts with
  | nil => rfl
  | cons part parts ih =>
    cases part with
    | nil => exact ih
    | cons c part =>
      rw [List.filter_cons_of_pos rfl, List.flatMap_cons, List.flatMap_cons, ih]

theorem monthNames_eq (s : Schedule) : (sorted (s.values .month)).mapM monthName =
    .ok ((sorted (s.values .month)).map monthText) :=
  mapM_ok fun m hm ↦ (monthText_facts m (months_mem s m hm)).2.2.2.2.2.1

theorem plain_monthText (s : Schedule) :
    ∀ w ∈ (sorted (s.values .month)).map monthText, Plain w := by
  intro w hw
  obtain ⟨m, hm, rfl⟩ := List.mem_map.mp hw
  exact (monthText_facts m (months_mem s m hm)).2.2.2.2.1

theorem weekdays_said {phrase : Text}
    (h : weekdayPhrase (sorted (s.values .dayOfWeek)) = .ok phrase) :
    phrase ≠ [] ∧ words phrase = weekdayWording (sorted (s.values .dayOfWeek)) := by
  have hlt : ∀ v ∈ s.values .dayOfWeek, v < 7 := by
    intro v hv
    have hle : v ≤ 6 := (Field.mem_allowed.mp (s.values_subset _ hv)).2
    omega
  obtain ⟨phrase', hphrase, hne, -⟩ :=
    weekdays_worded (sorted_mem_sublists hlt) (sorted_values_ne_nil s .dayOfWeek)
  obtain rfl := Except.ok.inj (h.symm.trans hphrase)
  exact ⟨hne, (weekdayWording_eq h).symm⟩

theorem domWording_many {days : List ℕ} (h : ∀ day, days = [day] → False) :
    domWording days = "los".toList :: "días".toList :: days.map decimal := by
  match days with
  | [] => rfl
  | [day] => exact (h day rfl).elim
  | _ :: _ :: _ => rfl

theorem monthsWording_many {months : List ℕ} (h : ∀ month, months = [month] → False) :
    monthsWording months = "los".toList :: "meses".toList :: months.map monthText := by
  match months with
  | [] => rfl
  | [month] => exact (h month rfl).elim
  | _ :: _ :: _ => rfl

theorem domPart_says {parts : List Text} (h : domPart (s.fieldText .dayOfMonth) = .ok parts) :
    parts.flatMap words = (restriction s .dayOfMonth).elim [] domWording := by
  unfold domPart restriction at *
  simp only [expandCronField_text, ok_bind] at h
  split_ifs at h ⊢
  · cases h
    rfl
  · split at h
    · rename_i day heq
      cases h
      rw [List.flatMap_singleton, words_append_of_last rfl, words_decimal, heq]
      rfl
    · rename_i hmany
      cases h
      rw [List.flatMap_singleton, words_append_of_last rfl, words_commas, flatMap_decimal,
        Option.elim_some, domWording_many hmany]
      rfl

theorem monthPart_says {parts : List Text} (h : monthPart (s.fieldText .month) = .ok parts) :
    parts.flatMap words = (restriction s .month).elim [] (List.map monthText) := by
  unfold monthPart restriction at *
  simp only [expandCronField_text, ok_bind, monthNames_eq] at h
  split_ifs at h ⊢
  · cases h
    rfl
  · cases h
    rw [List.flatMap_singleton, words_commas, flatMap_words (plain_monthText s)]
    rfl

theorem dowPart_says {parts : List Text} (h : dowPart (s.fieldText .dayOfWeek) = .ok parts) :
    parts.flatMap words = (restriction s .dayOfWeek).elim [] weekdayWording := by
  unfold dowPart restriction at *
  simp only [expandCronField_text, ok_bind] at h
  split_ifs at h ⊢
  · cases h
    rfl
  · obtain ⟨phrase, hphrase, h⟩ := bind_eq_ok.mp h
    cases h
    obtain ⟨hne, hwords⟩ := weekdays_said hphrase
    rw [if_neg hne, List.flatMap_singleton, hwords]
    rfl

theorem months_said (s : Schedule) {part : Text}
    (hone : ∀ m, sorted (s.values .month) = [m] → part = "todos los días de ".toList ++ monthText m)
    (hmany : (∀ m, sorted (s.values .month) ≠ [m]) → part = "todos los días de los meses ".toList ++
      commas ((sorted (s.values .month)).map monthText)) :
    words part = Days.wording ⟨none, some (sorted (s.values .month)), none⟩ := by
  have hplain := plain_monthText s
  rw [wording_of_months]
  by_cases hsingle : ∃ m, sorted (s.values .month) = [m]
  · obtain ⟨m, hm⟩ := hsingle
    rw [hm] at hplain ⊢
    rw [hone m hm, words_append_of_last rfl, words_of_plain (hplain _ List.mem_cons_self)]
    rfl
  · rw [hmany (not_exists.mp hsingle), words_append_of_last rfl, words_commas, flatMap_words hplain,
      monthsWording_many fun m hm ↦ hsingle ⟨m, hm⟩]
    rfl

theorem doms_said (s : Schedule) {part : Text}
    (hone : ∀ d, sorted (s.values .dayOfMonth) = [d] →
      part = "el día ".toList ++ decimal d ++ " de cada mes".toList)
    (hmany : (∀ d, sorted (s.values .dayOfMonth) ≠ [d]) → part = "los días ".toList ++
      commas ((sorted (s.values .dayOfMonth)).map decimal) ++ " de cada mes".toList) :
    words part = Days.wording ⟨some (sorted (s.values .dayOfMonth)), none, none⟩ := by
  rw [wording_of_doms]
  by_cases hsingle : ∃ d, sorted (s.values .dayOfMonth) = [d]
  · obtain ⟨d, hd⟩ := hsingle
    rw [hone d hd, hd, words_append_of_head rfl, words_append_of_last rfl, words_decimal]
    rfl
  · rw [hmany (not_exists.mp hsingle), words_append_of_head rfl, words_append_of_last rfl,
      words_commas, flatMap_decimal, domWording_many fun d hd ↦ hsingle ⟨d, hd⟩]
    rfl

/-- Fields that are restricted together are named one after the other. -/
theorem wording_of_together (s : Schedule)
    (hmonth : ¬(s.fieldText .dayOfWeek = starText ∧ s.fieldText .dayOfMonth = starText))
    (hdom : ¬(s.fieldText .dayOfWeek = starText ∧ s.fieldText .month = starText)) :
    (daysOf s).wording = (restriction s .dayOfMonth).elim [] domWording ++
      ((restriction s .month).elim [] (List.map monthText) ++
        (restriction s .dayOfWeek).elim [] weekdayWording) := by
  by_cases hweekday : s.fieldText .dayOfWeek = starText
  · have hdom' : s.fieldText .dayOfMonth ≠ starText := fun hstar ↦ hmonth ⟨hweekday, hstar⟩
    have hmonth' : s.fieldText .month ≠ starText := fun hstar ↦ hdom ⟨hweekday, hstar⟩
    rw [daysOf, restriction_of_star hweekday, restriction_of_ne hdom', restriction_of_ne hmonth']
    rfl
  · rw [daysOf, restriction_of_ne hweekday, wording_of_some]
    rfl

theorem dayParts_says {parts : List Text} (hall : ¬(s.fieldText .dayOfMonth = starText ∧
      s.fieldText .month = starText ∧ s.fieldText .dayOfWeek = starText))
    (h : dayParts (s.fieldText .dayOfMonth) (s.fieldText .month) (s.fieldText .dayOfWeek) =
      .ok parts) : parts.flatMap words = (daysOf s).wording := by
  unfold dayParts at h
  simp only [expandCronField_text, ok_bind, monthNames_eq] at h
  split_ifs at h with hmonth hdow hdom
  · have hdays : daysOf s = ⟨none, some (sorted (s.values .month)), none⟩ := by
      rw [daysOf, restriction_of_star hmonth.1, restriction_of_star hmonth.2.1,
        restriction_of_ne hmonth.2.2]
    rw [hdays]
    split at h
    · rename_i name heq
      obtain ⟨m, hm, rfl⟩ := List.map_eq_singleton_iff.mp heq
      cases h
      rw [List.flatMap_singleton]
      refine months_said s (fun m' hm' ↦ ?_) fun hmany ↦ absurd hm (hmany m)
      obtain rfl : m = m' := List.singleton_inj.mp (hm.symm.trans hm')
      rfl
    · rename_i hmany
      cases h
      rw [List.flatMap_singleton]
      refine months_said s (fun m hm ↦ (hmany (monthText m) ?_).elim) fun _ ↦ rfl
      rw [hm]
      rfl
  · have hweekday : s.fieldText .dayOfWeek ≠ starText := fun hstar ↦ hall ⟨hdow.1, hdow.2, hstar⟩
    have hdays : daysOf s = ⟨none, none, some (sorted (s.values .dayOfWeek))⟩ := by
      rw [daysOf, restriction_of_star hdow.1, restriction_of_star hdow.2,
        restriction_of_ne hweekday]
    obtain ⟨phrase, hphrase, h⟩ := bind_eq_ok.mp h
    cases h
    obtain ⟨hne, hwords⟩ := weekdays_said hphrase
    rw [hdays, if_neg hne, List.flatMap_singleton, hwords]
    rfl
  · have hdays : daysOf s = ⟨some (sorted (s.values .dayOfMonth)), none, none⟩ := by
      rw [daysOf, restriction_of_ne hdom.1, restriction_of_star hdom.2.1,
        restriction_of_star hdom.2.2]
    rw [hdays]
    split at h
    · rename_i day heq
      cases h
      rw [List.flatMap_singleton]
      refine doms_said s (fun day' heq' ↦ ?_) fun hmany ↦ absurd heq (hmany day)
      obtain rfl : day = day' := List.singleton_inj.mp (heq.symm.trans heq')
      rfl
    · rename_i hmany
      cases h
      rw [List.flatMap_singleton]
      exact doms_said s (fun day heq ↦ (hmany day heq).elim) fun _ ↦ rfl
  · obtain ⟨days, hdays, h⟩ := bind_eq_ok.mp h
    obtain ⟨months, hmonths, h⟩ := bind_eq_ok.mp h
    obtain ⟨weekdays, hweekdays, h⟩ := bind_eq_ok.mp h
    cases h
    rw [List.flatMap_append, List.flatMap_append, domPart_says hdays, monthPart_says hmonths,
      dowPart_says hweekdays, List.append_assoc, wording_of_together s]
    · intro hstar
      by_cases hstar' : s.fieldText .month = starText
      · exact hall ⟨hstar.2, hstar', hstar.1⟩
      · exact hmonth ⟨hstar.1, hstar.2, hstar'⟩
    · intro hstar
      by_cases hstar' : s.fieldText .dayOfMonth = starText
      · exact hall ⟨hstar', hstar.2, hstar.1⟩
      · exact hdom ⟨hstar', hstar.1, hstar.2⟩

theorem describeDays_says {t : Text}
    (h : describeDays (s.fieldText .dayOfMonth) (s.fieldText .month) (s.fieldText .dayOfWeek) =
      .ok t) : words t = (daysOf s).wording := by
  unfold describeDays at h
  split_ifs at h with hall
  · cases h
    obtain ⟨hdom, hmonth, hdow⟩ := hall
    rw [daysOf, restriction_of_star hdom, restriction_of_star hmonth,
      restriction_of_star hdow]
    rfl
  · obtain ⟨parts, hparts, h⟩ := bind_eq_ok.mp h
    cases h
    rw [words_parts, dayParts_says hall hparts]

end Description

end CronPanel.Cron.DayPhrases
