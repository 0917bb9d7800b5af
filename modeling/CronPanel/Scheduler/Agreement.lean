import CronPanel.Scheduler.Apscheduler

namespace CronPanel.Scheduler.Agreement

open Library.Strings Library.Ranges Library.Tables Library.Fallible
open Cron.Validator Cron.Elements Cron.Grammar Triggers Apscheduler

structure LocalTime where
  minute : ℕ
  hour : ℕ
  dayOfMonth : ℕ
  month : ℕ
  weekday : ℕ
  minute_mem : minute ∈ Field.minute.allowed
  hour_mem : hour ∈ Field.hour.allowed
  dayOfMonth_mem : dayOfMonth ∈ Field.dayOfMonth.allowed
  month_mem : month ∈ Field.month.allowed
  weekday_mem : weekday ∈ Field.dayOfWeek.allowed

def LocalTime.component (now : LocalTime) : Field → ℕ
  | .minute => now.minute
  | .hour => now.hour
  | .dayOfMonth => now.dayOfMonth
  | .month => now.month
  | .dayOfWeek => now.weekday

theorem LocalTime.component_mem (now : LocalTime) (f : Field) : now.component f ∈ f.allowed := by
  cases f
  exacts [now.minute_mem, now.hour_mem, now.dayOfMonth_mem, now.month_mem, now.weekday_mem]

theorem LocalTime.exists_component (f : Field) {v : ℕ} (h : v ∈ f.allowed) :
    ∃ now : LocalTime, now.component f = v := by
  cases f with
  | minute => exact ⟨⟨v, 0, 1, 1, 0, h, by decide, by decide, by decide, by decide⟩, rfl⟩
  | hour => exact ⟨⟨0, v, 1, 1, 0, by decide, h, by decide, by decide, by decide⟩, rfl⟩
  | dayOfMonth => exact ⟨⟨0, 0, v, 1, 0, by decide, by decide, h, by decide, by decide⟩, rfl⟩
  | month => exact ⟨⟨0, 0, 1, v, 0, by decide, by decide, by decide, h, by decide⟩, rfl⟩
  | dayOfWeek => exact ⟨⟨0, 0, 1, 1, v, by decide, by decide, by decide, by decide, h⟩, rfl⟩

/-- The scheduling library counts the weekdays from Monday. -/
def libraryNumber (f : Field) (v : ℕ) : ℕ := if f = .dayOfWeek then (v + 6) % 7 else v

/-- Each field of the trigger matches exactly the values in the expansion of the field's text. -/
def FiresAsExpanded {A : Apscheduler} (t : A.Trigger) (s : Schedule) : Prop :=
  ∀ (now : LocalTime) (f : Field), A.fires t f (libraryNumber f (now.component f)) ↔
    ∃ vs, expandCronField f (s.fieldText f) = .ok vs ∧ now.component f ∈ vs

/-- What the two readings of a `*/S` or `N/S` element do not share has to be covered by
the elements of the field. In a field that starts at 1 the panel reads `*/S` as the
multiples of S, and the library as 1, 1 + S, and so on. -/
def Covered (s : Schedule) {f : Field} (e : Element f) : Prop :=
  match e.base, e.step with
  | .single n, some step =>
    ∀ v ∈ f.allowed, n < v → step.value ∣ v - n → ∃ e' ∈ s.elements f, v ∈ e'.values
  | .any, some step =>
    0 < f.first → ∀ v ∈ f.allowed,
      (step.value ∣ v - f.first → ∃ e' ∈ s.elements f, v ∈ e'.values) ∧
      (step.value ∣ v → ∃ e' ∈ s.elements f, v ∈ firingValues e')
  | _, _ => True

/-- The weekday field lists all seven days, and the elements of the other fields are covered. -/
def SameReading (s : Schedule) : Prop :=
  (∀ v ∈ Field.dayOfWeek.allowed, ∃ e ∈ s.elements .dayOfWeek, v ∈ e.values) ∧
  ∀ f, f ≠ .dayOfWeek → ∀ e ∈ s.elements f, Covered s e

variable {s : Schedule}

theorem firingValues_subset {f : Field} (e : Element f) : firingValues e ⊆ f.allowed := by
  intro v hv
  obtain ⟨base, step, hb⟩ := e
  cases base with
  | any =>
    cases step with
    | none => exact hv
    | some step => exact (Finset.mem_filter.mp hv).1
  | single n =>
    cases step with
    | none => exact Finset.mem_singleton.mp hv ▸ hb
    | some step =>
      have hn := Finset.mem_Icc.mp (Finset.mem_filter.mp hv).1
      exact Field.mem_allowed.mpr ⟨(Field.mem_allowed.mp hb).1.trans hn.1, hn.2⟩
  | range a b => exact Element.values_subset ⟨.range a b, step, hb⟩ (by cases step <;> exact hv)

theorem values_subset_firing {f : Field} (hf : f.first = 0) (e : Element f) :
    e.values ⊆ firingValues e := by
  obtain ⟨base, step, hb⟩ := e
  cases base with
  | single n =>
    cases step with
    | none => exact subset_rfl
    | some step =>
      intro v hv
      obtain rfl := Finset.mem_singleton.mp hv
      have hle := (Field.mem_allowed.mp hb).2
      exact Finset.mem_filter.mpr ⟨Finset.mem_Icc.mpr ⟨le_rfl, hle⟩, by simp⟩
  | _ => cases step <;> simp [Element.values, firingValues, hf]

theorem exists_firing {f : Field} {e : Element f} (hc : Covered s e) (he : e ∈ s.elements f) {v : ℕ}
    (hv : v ∈ e.values) : ∃ e' ∈ s.elements f, v ∈ firingValues e' := by
  obtain hf | hf := Nat.eq_zero_or_pos f.first
  · exact ⟨e, he, values_subset_firing hf e hv⟩
  · obtain ⟨base, step, hb⟩ := e
    cases base with
    | any =>
      cases step with
      | none => exact ⟨_, he, hv⟩
      | some step =>
        obtain ⟨hmem, hdvd⟩ := Finset.mem_filter.mp hv
        exact (hc hf v hmem).2 hdvd
    | single n =>
      refine ⟨_, he, ?_⟩
      obtain rfl : v = n := by cases step <;> exact Finset.mem_singleton.mp hv
      cases step with
      | none => exact hv
      | some step =>
        have hle := (Field.mem_allowed.mp hb).2
        exact Finset.mem_filter.mpr ⟨Finset.mem_Icc.mpr ⟨le_rfl, hle⟩, by simp⟩
    | range a b => exact ⟨_, he, by cases step <;> exact hv⟩

theorem exists_values {f : Field} {e : Element f} (hc : Covered s e) (he : e ∈ s.elements f) {v : ℕ}
    (hv : v ∈ firingValues e) : ∃ e' ∈ s.elements f, v ∈ e'.values := by
  have hallowed := firingValues_subset e hv
  obtain ⟨base, step, hb⟩ := e
  cases base with
  | any =>
    cases step with
    | none => exact ⟨_, he, hv⟩
    | some step =>
      obtain ⟨hmem, hdvd⟩ := Finset.mem_filter.mp hv
      obtain hf | hf := Nat.eq_zero_or_pos f.first
      · rw [hf, Nat.sub_zero] at hdvd
        exact ⟨_, he, Finset.mem_filter.mpr ⟨hmem, hdvd⟩⟩
      · exact (hc hf v hmem).1 hdvd
  | single n =>
    cases step with
    | none => exact ⟨_, he, hv⟩
    | some step =>
      obtain ⟨hn, hdvd⟩ := Finset.mem_filter.mp hv
      obtain rfl | hlt := (Finset.mem_Icc.mp hn).1.eq_or_lt
      · exact ⟨_, he, Finset.mem_singleton_self _⟩
      · exact hc v hallowed hlt hdvd
  | range a b => exact ⟨_, he, by cases step <;> exact hv⟩

theorem fires_iff_values_iff_covered {f : Field} :
    (∀ v ∈ f.allowed, (∃ e ∈ s.elements f, v ∈ firingValues e) ↔ ∃ e ∈ s.elements f, v ∈ e.values) ↔
      ∀ e ∈ s.elements f, Covered s e := by
  constructor
  · intro h e he
    have hfiring {v : ℕ} (hv : v ∈ firingValues e) : ∃ e' ∈ s.elements f, v ∈ e'.values :=
      (h v (firingValues_subset e hv)).mp ⟨e, he, hv⟩
    have hvalues {v : ℕ} (hv : v ∈ e.values) : ∃ e' ∈ s.elements f, v ∈ firingValues e' :=
      (h v (e.values_subset hv)).mpr ⟨e, he, hv⟩
    obtain ⟨base, step, hb⟩ := e
    cases step with
    | none => cases base <;> trivial
    | some step =>
      cases base with
      | any =>
        intro _ v hv
        exact ⟨fun hdvd ↦ hfiring (Finset.mem_filter.mpr ⟨hv, hdvd⟩),
          fun hdvd ↦ hvalues (Finset.mem_filter.mpr ⟨hv, hdvd⟩)⟩
      | single n =>
        intro v hv hlt hdvd
        refine hfiring (Finset.mem_filter.mpr ⟨Finset.mem_Icc.mpr ⟨hlt.le, ?_⟩, hdvd⟩)
        exact (Field.mem_allowed.mp hv).2
      | range a b => trivial
  · intro h v _
    constructor
    · intro hx
      obtain ⟨e, he, hv⟩ := hx
      exact exists_values (h e he) he hv
    · intro hx
      obtain ⟨e, he, hv⟩ := hx
      exact exists_firing (h e he) he hv

theorem weekday_iff_whole_week :
    (∀ v ∈ Field.dayOfWeek.allowed, (∃ e ∈ s.elements .dayOfWeek, (v + 6) % 7 ∈ firingValues e) ↔
      ∃ e ∈ s.elements .dayOfWeek, v ∈ e.values) ↔
    ∀ v ∈ Field.dayOfWeek.allowed, ∃ e ∈ s.elements .dayOfWeek, v ∈ e.values := by
  have hmem {v : ℕ} : v ∈ Field.dayOfWeek.allowed ↔ v < 7 := by
    rw [Field.mem_allowed]
    simp only [Field.first, Field.last, Field.bounds]
    omega
  have hsub {v : ℕ} : (∃ e ∈ s.elements .dayOfWeek, v ∈ e.values) →
      ∃ e ∈ s.elements .dayOfWeek, v ∈ firingValues e := by
    intro h
    obtain ⟨e, he, hv⟩ := h
    exact ⟨e, he, values_subset_firing rfl e hv⟩
  constructor
  · intro h v hv
    refine forall_residue (P := fun v ↦ ∃ e ∈ s.elements .dayOfWeek, v ∈ e.values) ?_
      (fun v hv hP ↦ ?_) v (hmem.mp hv)
    · obtain ⟨e, he, v, hv⟩ := s.nonempty .dayOfWeek
      exact ⟨v, hmem.mp (e.values_subset hv), e, he, hv⟩
    · refine (h _ (hmem.mpr (Nat.mod_lt _ (by omega)))).mp ?_
      rw [show ((v + 1) % 7 + 6) % 7 = v by omega]
      exact hsub hP
  · intro h v hv
    exact ⟨fun _ ↦ h v hv, fun _ ↦ hsub (h _ (hmem.mpr (Nat.mod_lt _ (by omega))))⟩

theorem libraryNumber_mem {f : Field} {v : ℕ} (h : v ∈ f.allowed) :
    libraryNumber f v ∈ f.allowed := by
  unfold libraryNumber
  split_ifs with hf
  · subst hf
    have hlt : (v + 6) % 7 < 7 := Nat.mod_lt _ (by omega)
    rw [Field.mem_allowed]
    simp only [Field.first, Field.last, Field.bounds]
    omega
  · exact h

theorem firesAsExpanded_iff {A : Apscheduler} (hA : A.Documented) {t : A.Trigger}
    (ht : A.fromCrontab s.text = some t) : FiresAsExpanded t s ↔ SameReading s := by
  have hpoint (f : Field) {v : ℕ} (hv : v ∈ f.allowed) :
      A.fires t f (libraryNumber f v) ↔ ∃ e ∈ s.elements f, libraryNumber f v ∈ firingValues e :=
    hA.fires_iff s t ht f _ (libraryNumber_mem hv)
  have hexpand (f : Field) (v : ℕ) : (∃ vs, expandCronField f (s.fieldText f) = .ok vs ∧ v ∈ vs) ↔
      ∃ e ∈ s.elements f, v ∈ e.values := by
    rw [expandCronField_text, ← Schedule.mem_values, ← mem_sorted]
    exact ⟨fun ⟨vs, he, hm⟩ ↦ Except.ok.inj he ▸ hm, fun hm ↦ ⟨_, rfl, hm⟩⟩
  have hfield : FiresAsExpanded t s ↔ ∀ f, ∀ v ∈ f.allowed,
      (∃ e ∈ s.elements f, libraryNumber f v ∈ firingValues e) ↔
        ∃ e ∈ s.elements f, v ∈ e.values := by
    constructor
    · intro h f v hv
      obtain ⟨now, rfl⟩ := LocalTime.exists_component f hv
      rw [← hpoint f hv, ← hexpand]
      exact h now f
    · intro h now f
      have hv := now.component_mem f
      rw [hpoint f hv, hexpand]
      exact h f _ hv
  rw [hfield]
  constructor
  · intro h
    refine ⟨weekday_iff_whole_week.mp (h .dayOfWeek), fun f hf ↦ ?_⟩
    have hf' := h f
    simp only [libraryNumber, if_neg hf] at hf'
    exact fires_iff_values_iff_covered.mp hf'
  · intro hx f
    obtain ⟨hweek, hrest⟩ := hx
    by_cases hf : f = .dayOfWeek
    · subst hf
      exact weekday_iff_whole_week.mpr hweek
    · simp only [libraryNumber, if_neg hf]
      exact fires_iff_values_iff_covered.mpr (hrest f hf)

/-- The trigger that is armed for an accepted expression fires on the schedule that the
panel reads in it exactly when the two readings of the expression coincide. -/
theorem armed_trigger_fires_as_expanded_iff {A : Apscheduler} (hA : A.Documented) {e : Text}
    {fields : List Text} (h : parseCronExpression (some e) = .ok fields) {agenda agenda' : Agenda A}
    {id : ℕ} (harm : addOrReplace A agenda id e = .ok (true, agenda')) :
    ∃ (s : Schedule) (entry : Armed A), fields = s.fields ∧ agenda'.get? id = some entry ∧
      (FiresAsExpanded entry.trigger s ↔ SameReading s) := by
  obtain ⟨s, rfl⟩ := parse_ok h
  rw [addOrReplace_eq h] at harm
  cases hentry : armed? A s.text with
  | none => simp [hentry] at harm
  | some entry =>
    have hagenda : agenda.set id entry = agenda' := by simpa [hentry] using harm
    have hbuilt : A.fromCrontab s.text = some entry.trigger :=
      armed?_expression hentry ▸ entry.built
    exact ⟨s, entry, rfl, by rw [← hagenda, Table.get?_set_self], firesAsExpanded_iff hA hbuilt⟩

theorem armed?_eq {A : Apscheduler} {x : Text} {t : A.Trigger} (h : A.fromCrontab x = some t) :
    armed? A x = some ⟨x, t, h⟩ := by
  unfold armed?
  split
  · rename_i hnone
    simp [h] at hnone
  · rename_i hsome
    obtain rfl := Option.some.inj (hsome.symm.trans h)
    rfl

def armedSchedule (s : Schedule) (h : StepsFit s) : Armed apscheduler :=
  ⟨s.text, s.elements, fromCrontab_text.mpr ⟨rfl, h⟩⟩

theorem addOrReplace_schedule (s : Schedule) (h : StepsFit s)
    (agenda : Agenda apscheduler) (id : ℕ) :
    addOrReplace apscheduler agenda id s.text = .ok (true, agenda.set id (armedSchedule s h)) := by
  have harmed : armed? apscheduler s.text = some (armedSchedule s h) :=
    armed?_eq (armedSchedule s h).built
  rw [addOrReplace_eq (parse_text s), harmed]
  rfl

def atNine (d : ℕ) (hd : d ∈ Field.dayOfWeek.allowed) : Schedule where
  elements
    | .minute => [⟨.single 0, none, by decide⟩]
    | .hour => [⟨.single 9, none, by decide⟩]
    | .dayOfWeek => [⟨.single d, none, hd⟩]
    | _ => [⟨.any, none, trivial⟩]
  nonempty f := by
    cases f with
    | dayOfWeek => exact ⟨_, List.mem_cons_self, d, Finset.mem_singleton_self d⟩
    | _ => exact ⟨_, List.mem_cons_self, by decide⟩

theorem atNine_fits (d : ℕ) (hd : d ∈ Field.dayOfWeek.allowed) : StepsFit (atNine d hd) := by
  intro f e he
  cases f <;> simp only [atNine, List.mem_singleton] at he <;> subst he <;> trivial

/-- A task that the panel shows for Mondays runs on Tuesdays. -/
theorem monday_schedule_fires_on_tuesdays :
    ∃ entry : Armed apscheduler,
      addOrReplace apscheduler .empty 1 "0 9 * * 1".toList = .ok (true, Table.empty.set 1 entry) ∧
      expandCronField .dayOfWeek "1".toList = .ok [1] ∧
      ¬apscheduler.fires entry.trigger .dayOfWeek (libraryNumber .dayOfWeek 1) ∧
      apscheduler.fires entry.trigger .dayOfWeek (libraryNumber .dayOfWeek 2) := by
  have hmem : 1 ∈ Field.dayOfWeek.allowed := by decide
  have htext : "0 9 * * 1".toList = (atNine 1 hmem).text := rfl
  refine ⟨armedSchedule (atNine 1 hmem) (atNine_fits 1 hmem), ?_, by decide, ?_, ?_⟩
  · rw [htext, addOrReplace_schedule]
  · intro hx
    obtain ⟨e, he, hv⟩ := hx
    obtain rfl := List.mem_singleton.mp he
    exact absurd (Finset.mem_singleton.mp hv) (by decide)
  · exact ⟨_, List.mem_cons_self, Finset.mem_singleton_self 1⟩

theorem armed_trigger_fires_as_expanded_monday :
    ∃ (s : Schedule) (entry : Armed apscheduler),
      ["0".toList, "9".toList, ['*'], ['*'], "1".toList] = s.fields ∧
      (Table.empty.set 1 (armedSchedule (atNine 1 (by decide)) (atNine_fits 1 _))).get? 1 =
        some entry ∧
      (FiresAsExpanded entry.trigger s ↔ SameReading s) := by
  have htext : "0 9 * * 1".toList = (atNine 1 (by decide)).text := by decide
  have harmed : addOrReplace apscheduler .empty 1 "0 9 * * 1".toList =
      .ok (true, Table.empty.set 1 (armedSchedule (atNine 1 (by decide)) (atNine_fits 1 _))) := by
    rw [htext, addOrReplace_schedule _ (atNine_fits 1 _)]
  have hparse : parseCronExpression (some "0 9 * * 1".toList) =
      .ok ["0".toList, "9".toList, ['*'], ['*'], "1".toList] := by decide
  exact armed_trigger_fires_as_expanded_iff apscheduler_documented hparse harmed

/-- An accepted expression is armed exactly when each of its steps fits in its element. -/
theorem accepted_expression_armed_iff {A : Apscheduler} (hA : A.Documented) {e : Text}
    {r : CronValidation} (h : validateCronExpression (some e) = .ok r) (hv : r.valid)
    (agenda : Agenda A) (id : ℕ) :
    ∃ s : Schedule, r.fields = some s.fields ∧
      ((∃ agenda', addOrReplace A agenda id e = .ok (true, agenda')) ↔ StepsFit s) := by
  obtain ⟨s, hs, hp⟩ := validate_valid h hv
  refine ⟨s, hs, ?_⟩
  rw [addOrReplace_eq hp, ← hA.accepts, ← armed?_isSome]
  cases armed? A s.text <;> simp

theorem sixty_minute_step_is_not_armed :
    ∃ r, validateCronExpression (some "*/60 * * * *".toList) = .ok r ∧ r.valid ∧
      addOrReplace apscheduler .empty 1 "*/60 * * * *".toList = .ok (false, .empty) :=
  ⟨_, rfl, rfl, rfl⟩

theorem accepted_expression_armed_sixty :
    ∃ s : Schedule, some ["*/60".toList, ['*'], ['*'], ['*'], ['*']] = some s.fields ∧
      ((∃ agenda', addOrReplace apscheduler .empty 1 "*/60 * * * *".toList = .ok (true, agenda')) ↔
        StepsFit s) :=
  accepted_expression_armed_iff apscheduler_documented
    (r := ⟨true, some "*/60 * * * *".toList, some ["*/60".toList, ['*'], ['*'], ['*'], ['*']],
      none, none, none⟩) (by decide) rfl .empty 1

end CronPanel.Scheduler.Agreement
