import CronPanel.Cron.Displayable
import CronPanel.Library.Words

namespace CronPanel.Cron.Wordings

open Library.Strings Library.Ranges Library.Fallible Library.Words Validator Elements Grammar
open Describe

/-- What a sentence says of the minutes. -/
inductive Minutes
  | each (step : ℕ)
  | one (minute : ℕ)
  | listed (minutes : List ℕ)

inductive Hours
  | one (hour : ℕ)
  | listed (hours : List ℕ)

inductive Times
  | everyMinute
  | everyMinuteOf (hour : ℕ)
  | clock (times : List ℕ)
  | minutes (minutes : Minutes)
  | minutesOf (minutes : Minutes) (hours : Hours)

def clockText (time : ℕ) : Text := twoDigits (time / 100) ++ ":".toList ++ twoDigits (time % 100)

/-- A list with an `y` before its last word, if it has others. -/
def enumeration : List Text → List Text
  | [text] => [text]
  | texts => texts.dropLast ++ "y".toList :: texts.getLast?.toList

namespace Minutes

def wording : Minutes → List Text
  | each step => ["cada".toList, decimal step, "minutos".toList]
  | one minute => ["el".toList, "minuto".toList, decimal minute]
  | listed minutes => "los".toList :: "minutos".toList :: minutes.map decimal

def values : Minutes → Finset ℕ
  | each step => Field.minute.allowed.filter (step ∣ ·)
  | one minute => {minute}
  | listed minutes => minutes.toFinset

end Minutes

namespace Hours

def wording : Hours → List Text
  | one hour => ["la".toList, twoDigits hour ++ ":00".toList]
  | listed hours => "las".toList :: "horas".toList :: hours.map twoDigits

def values : Hours → Finset ℕ
  | one hour => {hour}
  | listed hours => hours.toFinset

end Hours

namespace Times

def wording : Times → List Text
  | everyMinute => ["cada".toList, "minuto".toList]
  | everyMinuteOf hour => ["cada".toList, "minuto".toList, "entre".toList, "las".toList,
      twoDigits hour ++ ":00".toList, "y".toList, "las".toList, twoDigits hour ++ ":59".toList]
  | clock times => "a".toList :: "las".toList :: enumeration (times.map clockText)
  | minutes m => m.wording
  | minutesOf m h => m.wording ++ "de".toList :: h.wording

def minuteValues : Times → Finset ℕ
  | everyMinute => Field.minute.allowed
  | everyMinuteOf _ => Field.minute.allowed
  | clock times => (times.map (· % 100)).toFinset
  | minutes m => m.values
  | minutesOf m _ => m.values

def hourValues : Times → Finset ℕ
  | everyMinute => Field.hour.allowed
  | everyMinuteOf hour => {hour}
  | clock times => (times.map (· / 100)).toFinset
  | minutes _ => Field.hour.allowed
  | minutesOf _ h => h.values

end Times

/-- The words with which the times of a description begin to differ from its days. -/
def isMarker (word : Text) : Bool := ["minuto".toList, "minutos".toList, "las".toList].contains word

section Wordings

theorem toLower_of_isDigit {c : Char} (h : c.isDigit) : c.toLower = c := by
  refine Char.toLower_eq_of_not_isUpper fun hupper ↦ ?_
  simp only [Char.isUpper, Char.isDigit, Bool.and_eq_true, decide_eq_true_eq, ge_iff_le,
    UInt32.le_iff_toNat_le] at hupper h
  exact absurd (hupper.1.trans h.2) (by decide)

theorem plain_of_isDigits {t : Text} (h : isDigits t) : Plain t := by
  refine ⟨ne_nil_of_isDigits h, List.all_eq_true.mpr fun c hc ↦ ?_⟩
  have hdigit := isDigit_of_mem h hc
  have hcomma : c ≠ ',' := by
    rintro rfl
    exact absurd hdigit (by decide)
  simp [isPlain, divides, toLower_of_isDigit hdigit, isSpace_of_isDigit hdigit, hcomma]

theorem isDigits_twoDigits (n : ℕ) : isDigits (twoDigits n) := by
  unfold twoDigits
  split_ifs
  · have h := isDigits_decimal n
    simp only [isDigits, Bool.and_eq_true, List.all_cons] at h ⊢
    exact ⟨rfl, rfl, h.2⟩
  · exact isDigits_decimal n

theorem twoDigits_injective : Function.Injective twoDigits := by
  have hread (n : ℕ) : Nat.ofDigitChars 10 (twoDigits n) 0 = n := by
    unfold twoDigits
    split_ifs
    · exact Nat.ofDigitChars_ten_toDigits
    · exact Nat.ofDigitChars_ten_toDigits
  intro m n h
  rw [← hread m, ← hread n, h]

theorem colon_not_mem_twoDigits (n : ℕ) : ':' ∉ twoDigits n :=
  not_mem_of_isDigits (isDigits_twoDigits n) rfl

theorem plain_twoDigits (n : ℕ) : Plain (twoDigits n) := plain_of_isDigits (isDigits_twoDigits n)

theorem plain_clockText (time : ℕ) : Plain (clockText time) := by
  have hcolon : Plain (twoDigits (time / 100) ++ ":".toList) := (plain_twoDigits _).append (by decide)
  exact hcolon.append (plain_twoDigits _).2

theorem clockText_injective : Function.Injective clockText := by
  intro m n h
  simp only [clockText, List.append_assoc] at h
  have hsplit := congrArg (partition ':') h
  change partition ':' (_ ++ ':' :: _) = partition ':' (_ ++ ':' :: _) at hsplit
  rw [partition_append (colon_not_mem_twoDigits _), partition_append (colon_not_mem_twoDigits _),
    Prod.mk.injEq] at hsplit
  rw [← Nat.div_add_mod m 100, ← Nat.div_add_mod n 100, twoDigits_injective hsplit.1,
    twoDigits_injective hsplit.2]

theorem isMarker_of_isDigits {w : Text} (h : isDigits w) : isMarker w = false := by
  rw [isMarker, List.contains_eq_mem, decide_eq_false_iff_not]
  simp only [List.mem_cons, List.not_mem_nil, or_false]
  rintro (rfl | rfl | rfl) <;> exact absurd h (by decide)

end Wordings

section Readings

variable {m m' : Minutes} {h h' : Hours} {r r' : Times}

theorem Minutes.wording_inj (heq : m.wording = m'.wording) : m = m' := by
  cases m <;> cases m'
  case each.each step step' =>
    have hstep : decimal step = decimal step' := (List.cons.inj (List.cons.inj heq).2).1
    rw [decimal_inj hstep]
  case one.one minute minute' =>
    have hminute : decimal minute = decimal minute' :=
      (List.cons.inj (List.cons.inj (List.cons.inj heq).2).2).1
    rw [decimal_inj hminute]
  case listed.listed minutes minutes' =>
    have hminutes := (List.cons.inj (List.cons.inj heq).2).2
    rw [List.map_injective_iff.mpr (fun _ _ ↦ decimal_inj) hminutes]
  all_goals exact absurd (List.cons.inj heq).1 (by decide)

theorem Hours.wording_inj (heq : h.wording = h'.wording) : h = h' := by
  cases h <;> cases h'
  case one.one hour hour' =>
    have hhour := (List.cons.inj (List.cons.inj heq).2).1
    rw [twoDigits_injective (List.append_cancel_right hhour)]
  case listed.listed hours hours' =>
    have hhours := (List.cons.inj (List.cons.inj heq).2).2
    rw [List.map_injective_iff.mpr twoDigits_injective hhours]
  all_goals exact absurd (List.cons.inj heq).1 (by decide)

theorem enumeration_many {texts : List Text} (h : ∀ text, texts ≠ [text]) :
    enumeration texts = texts.dropLast ++ "y".toList :: texts.getLast?.toList := by
  match texts with
  | [] => rfl
  | [text] => exact absurd rfl (h text)
  | _ :: _ :: _ => rfl

theorem filter_enumeration {texts : List Text} (h : ∀ w ∈ texts, w ≠ "y".toList) :
    (enumeration texts).filter (· ≠ "y".toList) = texts := by
  have hfilter : ∀ ws : List Text, (∀ w ∈ ws, w ∈ texts) → ws.filter (· ≠ "y".toList) = ws :=
    fun ws hws ↦ List.filter_eq_self.mpr fun w hw ↦ decide_eq_true (h w (hws w hw))
  by_cases hone : ∃ text, texts = [text]
  · obtain ⟨text, rfl⟩ := hone
    exact hfilter [text] fun _ ↦ id
  · rw [enumeration_many (not_exists.mp hone), List.filter_append,
      List.filter_cons_of_neg (by simp), hfilter _ fun w hw ↦ List.mem_of_mem_dropLast hw]
    cases hlast : texts.getLast? with
    | none => simp [List.getLast?_eq_none_iff.mp hlast]
    | some last =>
      rw [Option.toList_some, hfilter [last] (by simpa using List.mem_of_getLast? hlast)]
      exact List.dropLast_append_getLast? last hlast

theorem clockText_ne (time : ℕ) : clockText time ≠ "y".toList := by
  intro h
  have hcolon : ':' ∈ clockText time := by simp [clockText]
  rw [h] at hcolon
  exact absurd hcolon (by decide)

/-- The kind of a wording of times, read off its words. -/
def kindOf (wording : List Text) : ℕ :=
  if wording.head? = some "a".toList then 0
  else if wording.contains "de".toList then 1
  else if wording = ["cada".toList, "minuto".toList] then 2
  else if wording.contains "entre".toList then 3
  else 4

def Times.kind : Times → ℕ
  | clock _ => 0
  | minutesOf _ _ => 1
  | everyMinute => 2
  | everyMinuteOf _ => 3
  | minutes _ => 4

theorem not_mem_minutes {w : Text} (hdigits : ¬isDigits w) (hw : w ∉ ["cada".toList, "minutos".toList,
    "el".toList, "minuto".toList, "los".toList]) : w ∉ m.wording := by
  have hnumber (n : ℕ) : w ≠ decimal n := fun heq ↦ hdigits (heq ▸ isDigits_decimal n)
  simp only [List.mem_cons, List.not_mem_nil, or_false, not_or] at hw
  obtain ⟨hcada, hminutos, hel, hminuto, hlos⟩ := hw
  cases m with
  | each step =>
    simp only [Minutes.wording, List.mem_cons, List.not_mem_nil, or_false, not_or]
    exact ⟨hcada, hnumber step, hminutos⟩
  | one minute =>
    simp only [Minutes.wording, List.mem_cons, List.not_mem_nil, or_false, not_or]
    exact ⟨hel, hminuto, hnumber minute⟩
  | listed minutes =>
    simp only [Minutes.wording, List.mem_cons, List.mem_map, not_or, not_exists, not_and]
    exact ⟨hlos, hminutos, fun n _ ↦ (hnumber n).symm⟩

theorem head_minutes (m : Minutes) (ws : List Text) :
    (m.wording ++ ws).head? ≠ some "a".toList := by
  cases m <;> simp [Minutes.wording]

theorem kindOf_wording (r : Times) : kindOf r.wording = r.kind := by
  cases r with
  | clock times => rfl
  | everyMinute => rfl
  | everyMinuteOf hour =>
    have hcolon (t : Text) : "de".toList ≠ twoDigits hour ++ ':' :: t := by
      intro heq
      have hmem : ':' ∈ "de".toList := by
        rw [heq]
        exact List.mem_append_right _ List.mem_cons_self
      exact absurd hmem (by decide)
    have hde : "de".toList ∉ (Times.everyMinuteOf hour).wording := by
      simp only [Times.wording, List.mem_cons, List.not_mem_nil, or_false, not_or]
      exact ⟨by decide, by decide, by decide, by decide, hcolon _, by decide, by decide, hcolon _⟩
    rw [kindOf, if_neg (by simp [Times.wording]), if_neg (List.contains_iff_mem.not.mpr hde),
      if_neg (by simp [Times.wording]), if_pos (by simp [Times.wording])]
    rfl
  | minutes m =>
    have hhead : m.wording.head? ≠ some "a".toList := by simpa using head_minutes m []
    have hde : "de".toList ∉ m.wording := not_mem_minutes (by decide) (by decide)
    have hentre : "entre".toList ∉ m.wording := not_mem_minutes (by decide) (by decide)
    have hevery : m.wording ≠ ["cada".toList, "minuto".toList] := by
      cases m <;> simp [Minutes.wording]
    rw [Times.wording, kindOf, if_neg hhead, if_neg (List.contains_iff_mem.not.mpr hde),
      if_neg hevery, if_neg (List.contains_iff_mem.not.mpr hentre)]
    rfl
  | minutesOf m h =>
    have hde : "de".toList ∈ m.wording ++ "de".toList :: h.wording := by simp
    rw [Times.wording, kindOf, if_neg (head_minutes m _), if_pos (List.contains_iff_mem.mpr hde)]
    rfl

theorem Times.wording_inj (heq : r.wording = r'.wording) : r = r' := by
  have hkind : r.kind = r'.kind := by rw [← kindOf_wording, ← kindOf_wording, heq]
  cases r <;> cases r'
  case everyMinute.everyMinute => rfl
  case everyMinuteOf.everyMinuteOf hour hour' =>
    have hhour : twoDigits hour ++ ":00".toList = twoDigits hour' ++ ":00".toList :=
      congrArg (fun words : List Text ↦ words.getD 4 []) heq
    rw [twoDigits_injective (List.append_cancel_right hhour)]
  case clock.clock times times' =>
    have hread (times : List ℕ) : (enumeration (times.map clockText)).filter (· ≠ "y".toList) =
        times.map clockText := by
      refine filter_enumeration fun w hw ↦ ?_
      obtain ⟨time, -, rfl⟩ := List.mem_map.mp hw
      exact clockText_ne time
    have htimes : times.map clockText = times'.map clockText := by
      rw [← hread times, ← hread times', (List.cons.inj (List.cons.inj heq).2).2]
    rw [List.map_injective_iff.mpr clockText_injective htimes]
  case minutes.minutes m m' => rw [Minutes.wording_inj heq]
  case minutesOf.minutesOf m h m' h' =>
    have hde (m : Minutes) : ∀ w ∈ m.wording, w ≠ "de".toList := by
      rintro w hw rfl
      exact not_mem_minutes (by decide) (by decide) hw
    obtain ⟨hm, hh⟩ := split_at_first (hde m) (hde m') rfl rfl heq
    rw [Minutes.wording_inj hm, Hours.wording_inj (List.cons.inj hh).2]
  all_goals exact absurd hkind (by simp [Times.kind])

/-- The words before the first marker of a wording of times. -/
def Minutes.lead : Minutes → List Text
  | each step => ["cada".toList, decimal step]
  | one _ => ["el".toList]
  | listed _ => ["los".toList]

def Times.lead : Times → List Text
  | everyMinute => ["cada".toList]
  | everyMinuteOf _ => ["cada".toList]
  | clock _ => ["a".toList]
  | minutes m => m.lead
  | minutesOf m _ => m.lead

theorem Minutes.wording_eq (m : Minutes) :
    ∃ marker rest, m.wording = m.lead ++ marker :: rest ∧ isMarker marker := by
  cases m with
  | each step => exact ⟨_, _, rfl, rfl⟩
  | one minute => exact ⟨_, _, rfl, rfl⟩
  | listed minutes => exact ⟨_, _, rfl, rfl⟩

theorem Times.wording_eq (r : Times) :
    ∃ marker rest, r.wording = r.lead ++ marker :: rest ∧ isMarker marker := by
  cases r with
  | everyMinute => exact ⟨_, _, rfl, rfl⟩
  | everyMinuteOf hour => exact ⟨_, _, rfl, rfl⟩
  | clock times => exact ⟨_, _, rfl, rfl⟩
  | minutes m => exact m.wording_eq
  | minutesOf m h =>
    obtain ⟨marker, rest, hm, hmarker⟩ := m.wording_eq
    refine ⟨marker, rest ++ "de".toList :: h.wording, ?_, hmarker⟩
    rw [Times.wording, hm, Times.lead, List.append_assoc, List.cons_append]

theorem Minutes.lead_cases (m : Minutes) :
    (∃ w, m.lead = [w] ∧ isDigits w = false ∧ isMarker w = false) ∨
      ∃ step, m.lead = ["cada".toList, decimal step] := by
  cases m with
  | each step => exact .inr ⟨step, rfl⟩
  | one minute => exact .inl ⟨_, rfl, rfl, rfl⟩
  | listed minutes => exact .inl ⟨_, rfl, rfl, rfl⟩

theorem Times.lead_cases (r : Times) :
    (∃ w, r.lead = [w] ∧ isDigits w = false ∧ isMarker w = false) ∨
      ∃ step, r.lead = ["cada".toList, decimal step] := by
  cases r with
  | everyMinute => exact .inl ⟨_, rfl, rfl, rfl⟩
  | everyMinuteOf hour => exact .inl ⟨_, rfl, rfl, rfl⟩
  | clock times => exact .inl ⟨_, rfl, rfl, rfl⟩
  | minutes m => exact m.lead_cases
  | minutesOf m h => exact m.lead_cases

theorem lead_unmarked (r : Times) : ∀ w ∈ r.lead, ¬isMarker w := by
  rcases r.lead_cases with ⟨w, hw, -, hmarker⟩ | ⟨step, hstep⟩
  · simp [hw, hmarker]
  · have hnumber := isMarker_of_isDigits (isDigits_decimal step)
    rw [hstep]
    simp only [List.mem_cons, List.not_mem_nil, or_false, forall_eq_or_imp, forall_eq, hnumber]
    exact ⟨by decide, by decide⟩

theorem lead_cancel {ws ws' : List Text} (heq : ws ++ r.lead = ws' ++ r'.lead) : ws = ws' := by
  have hlast {ws ws' : List Text} {w : Text} (hw : isDigits w = false) {step : ℕ} :
      ws ++ [w] ≠ ws' ++ ["cada".toList, decimal step] := by
    intro heq
    have hstep : w = decimal step := by simpa using congrArg List.getLast? heq
    rw [hstep, isDigits_decimal] at hw
    cases hw
  rcases r.lead_cases with ⟨w, hw, hdigits, -⟩ | ⟨step, hstep⟩
  · rcases r'.lead_cases with ⟨w', hw', -, -⟩ | ⟨step', hstep'⟩
    · rw [hw, hw'] at heq
      exact (List.append_inj' heq rfl).1
    · rw [hw, hstep'] at heq
      exact absurd heq (hlast hdigits)
  · rcases r'.lead_cases with ⟨w', hw', hdigits', -⟩ | ⟨step', hstep'⟩
    · rw [hstep, hw'] at heq
      exact absurd heq.symm (hlast hdigits')
    · rw [hstep, hstep'] at heq
      exact (List.append_inj' heq rfl).1

/-- Words without a marker can be told from the wording of times that follows them. -/
theorem split_wording {ws ws' : List Text} (hws : ∀ w ∈ ws, ¬isMarker w)
    (hws' : ∀ w ∈ ws', ¬isMarker w) (heq : ws ++ r.wording = ws' ++ r'.wording) :
    ws = ws' ∧ r = r' := by
  obtain ⟨marker, rest, hr, hmarker⟩ := r.wording_eq
  obtain ⟨marker', rest', hr', hmarker'⟩ := r'.wording_eq
  have hwords : ws = ws' := by
    rw [hr, hr', ← List.append_assoc, ← List.append_assoc] at heq
    refine lead_cancel (split_at_first (p := fun w ↦ isMarker w) ?_ ?_ hmarker hmarker' heq).1
    · exact fun w hw ↦ (List.mem_append.mp hw).elim (hws w) (lead_unmarked r w)
    · exact fun w hw ↦ (List.mem_append.mp hw).elim (hws' w) (lead_unmarked r' w)
  refine ⟨hwords, Times.wording_inj ?_⟩
  rw [hwords] at heq
  exact List.append_cancel_left heq

end Readings

end CronPanel.Cron.Wordings
