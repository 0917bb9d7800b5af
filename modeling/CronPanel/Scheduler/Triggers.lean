import CronPanel.Library.Tables
import CronPanel.Cron.Grammar

namespace CronPanel.Scheduler.Triggers

open Library.Strings Library.Tables Library.Fallible Cron.Validator Cron.Elements Cron.Grammar

/-- What the scheduler uses of the scheduling library: `CronTrigger.from_crontab`,
where `none` is a `ValueError`, and the values a field of a trigger matches. -/
structure Apscheduler where
  Trigger : Type
  fromCrontab : Text → Option Trigger
  fires : Trigger → Field → ℕ → Prop

/-- The values the scheduling library gives to an element. A step counts from the
least value of the field after a star, and runs up to the greatest after a single value. -/
def firingValues {f : Field} (e : Element f) : Finset ℕ :=
  match e.base, e.step with
  | .any, none => f.allowed
  | .any, some s => f.allowed.filter (fun v ↦ s.value ∣ v - f.first)
  | .single n, none => {n}
  | .single n, some s => (Finset.Icc n f.last).filter (fun v ↦ s.value ∣ v - n)
  | .range a b, none => Finset.Icc a b
  | .range a b, some s => (Finset.Icc a b).filter (fun v ↦ s.value ∣ v - a)

/-- The steps the scheduling library does not reject. -/
def StepFits {f : Field} (e : Element f) : Prop :=
  match e.base, e.step with
  | _, none => True
  | .any, some s => s.value ≤ f.last - f.first
  | .single n, some s => s.value ≤ f.last - n
  | .range a b, some s => s.value ≤ b - a

instance {f : Field} (e : Element f) : Decidable (StepFits e) := by
  unfold StepFits
  split <;> infer_instance

def StepsFit (s : Schedule) : Prop := ∀ f, ∀ e ∈ s.elements f, StepFits e

/-- The documented behaviour of version 3 on the texts of schedules. -/
structure Apscheduler.Documented (A : Apscheduler) : Prop where
  accepts : ∀ s : Schedule, (A.fromCrontab s.text).isSome ↔ StepsFit s
  fires_iff : ∀ (s : Schedule) (t : A.Trigger), A.fromCrontab s.text = some t →
    ∀ f, ∀ v ∈ f.allowed, A.fires t f v ↔ ∃ e ∈ s.elements f, v ∈ firingValues e

/-- An entry of the job store: the expression its trigger was built from is part of it. -/
structure Armed (A : Apscheduler) where
  expression : Text
  trigger : A.Trigger
  built : A.fromCrontab expression = some trigger

/-- The cron jobs in the job store, under the numbers of their `cronpanel:cron_job:<id>` names. -/
abbrev Agenda (A : Apscheduler) := Table ℕ (Armed A)

variable (A : Apscheduler)

def armed? (expression : Text) : Option (Armed A) :=
  match h : A.fromCrontab expression with
  | none => none
  | some trigger => some ⟨expression, trigger, h⟩

def addOrReplace (agenda : Agenda A) (cronJobId : ℕ) (scheduleExpression : Text) :
    Except PyError (Bool × Agenda A) := do
  let result ← validateCronExpression (some scheduleExpression)
  match result.valid, result.normalizedExpression with
  | true, some normalized =>
    match armed? A normalized with
    | none => .ok (false, agenda)
    | some entry => .ok (true, agenda.set cronJobId entry)
  | _, _ => .ok (false, agenda)

variable {A}

theorem armed?_expression {x : Text} {entry : Armed A} (h : armed? A x = some entry) :
    entry.expression = x := by
  unfold armed? at h
  split at h
  · cases h
  · cases h
    rfl

theorem armed?_isSome {x : Text} : (armed? A x).isSome ↔ (A.fromCrontab x).isSome := by
  unfold armed?
  split <;> rename_i h <;> simp [h]

theorem armed?_eq_none {x : Text} : armed? A x = none ↔ A.fromCrontab x = none := by
  rw [← Option.not_isSome_iff_eq_none, ← Option.not_isSome_iff_eq_none, armed?_isSome]

theorem validate_ok {e : Option Text} {s : Schedule} (h : parseCronExpression e = .ok s.fields) :
    validateCronExpression e = .ok ⟨true, some s.text, some s.fields, none, none, none⟩ := by
  rw [validateCronExpression, h]
  rfl

theorem validate_valid {e : Option Text} {r : CronValidation}
    (h : validateCronExpression e = .ok r) (hv : r.valid) :
    ∃ s : Schedule, r.fields = some s.fields ∧ parseCronExpression e = .ok s.fields := by
  rw [validateCronExpression] at h
  split at h
  · rename_i fields hp
    obtain ⟨s, rfl⟩ := parse_ok hp
    cases h
    exact ⟨s, rfl, hp⟩
  · cases h
    cases hv
  · cases h

theorem addOrReplace_eq {e : Text} {s : Schedule} (h : parseCronExpression (some e) = .ok s.fields)
    (agenda : Agenda A) (id : ℕ) :
    addOrReplace A agenda id e =
      .ok ((armed? A s.text).elim (false, agenda) fun entry ↦ (true, agenda.set id entry)) := by
  simp only [addOrReplace, validate_ok h, ok_bind]
  cases armed? A s.text <;> rfl

end CronPanel.Scheduler.Triggers
