import CronPanel.Api.CronJobs

namespace CronPanel.Api.Display

open Library.Strings Library.Tables Library.Fallible Core.Permissions Data.Records Data.Repositories
open Cron.Validator Cron.Elements Cron.Grammar Cron.Describe Cron.Displayable
open Scheduler.Triggers Errors CronJobs

/-- Everything that shows an accepted expression returns: the describer on it and on its
normalized form, the responses about the jobs that store it, and `POST /validate`. -/
structure Displayable (e : Text) : Prop where
  description : Succeeds (describeCronExpression (some e))
  normalized : ∃ n, normalizeCronExpression (some e) = .ok n ∧
    Succeeds (describeCronExpression (some n)) ∧
    ∀ (db : Database) (nextRun : Option Instant) (id : ℕ) (job : CronJob),
      job.scheduleExpression = n → Succeeds (toResponse db nextRun id job)
  validation : Succeeds (validateRoute e)

section

variable {s : Schedule}

theorem toResponse_ok {db : Database} {nextRun : Option Instant} {id : ℕ} {job : CronJob}
    (h : Succeeds (describeCronExpression (some job.scheduleExpression))) :
    Succeeds (toResponse db nextRun id job) := h.bind fun _ _ ↦ ⟨_, rfl⟩

theorem validateRoute_ok {e : Text} (h : parseCronExpression (some e) = .ok s.fields)
    (hd : Succeeds (describeCronExpression (some s.text))) : Succeeds (validateRoute e) := by
  obtain ⟨description, hd⟩ := hd
  rw [validateRoute, validate_ok h, ok_bind]
  refine Succeeds.bind ⟨some description, ?_⟩ fun _ _ ↦ ⟨_, rfl⟩
  simp only [validateDescription, hd]

/-- An accepted expression can be displayed exactly when it is not one whose minutes are
a list led by a step over all of them, with clock times that are not enumerated. -/
theorem accepted_expression_displayable_iff {e : Text} {fields : List Text}
    (h : parseCronExpression (some e) = .ok fields) :
    ∃ s : Schedule, fields = s.fields ∧ (Displayable e ↔ ¬StepLedList s) := by
  obtain ⟨s, rfl⟩ := parse_ok h
  refine ⟨s, rfl, fun hd ↦ (describe_ok_iff h).mp hd.description, fun hled ↦ ?_⟩
  have htext := describe_ok (parse_text s) hled
  refine ⟨describe_ok h hled, ⟨s.text, normalize_ok h, htext, ?_⟩, validateRoute_ok h htext⟩
  intro db nextRun id job he
  exact toResponse_ok (he ▸ htext)

end

/-- One job whose schedule cannot be displayed takes the whole listing down with it. -/
theorem listCronJobs_fails {sender : Sender} {nextRun : ℕ → Option Instant}
    {filters : CronJobFilter}
    {db : Database} {call : Services.CronJobs.Call} {id : ℕ} {job : CronJob} {s : Schedule}
    (hcall : requirePermission db sender .cronJobsRead = .ok call)
    (hmem : (id, job) ∈ Services.CronJobs.listCronJobs db call.actor filters)
    (htext : job.scheduleExpression = s.text) (hled : StepLedList s) :
    listCronJobs sender nextRun filters db = .error .internal := by
  rw [listCronJobs, hcall, ok_bind]
  refine mapM_error (fun r _ e he ↦ ?_) ⟨(id, job), hmem, ?_⟩
  · unfold answerJob at he
    cases hr : toResponse db (nextRun r.1) r.1 r.2 with
    | error e' =>
      rw [hr] at he
      cases he
      rfl
    | ok response =>
      rw [hr] at he
      cases he
  · intro hx
    obtain ⟨response, hr⟩ := hx
    have hd : toResponse db (nextRun id) id job = .error .valueError := by
      rw [toResponse, htext, describe_led (parse_text s) hled]
      rfl
    rw [answerJob, hd] at hr
    cases hr

theorem step_led_list_is_not_displayable :
    parseCronExpression (some "*/5,10 * * * *".toList) =
        .ok ["*/5,10".toList, ['*'], ['*'], ['*'], ['*']] ∧
      describeCronExpression (some "*/5,10 * * * *".toList) = .error .valueError ∧
      ¬Displayable "*/5,10 * * * *".toList := by
  have hd : describeCronExpression (some "*/5,10 * * * *".toList) = .error .valueError := by decide
  refine ⟨by decide, hd, fun h ↦ ?_⟩
  have hok := h.description
  rw [hd] at hok
  exact not_succeeds_error _ hok

theorem accepted_expression_displayable_step_led :
    ∃ s : Schedule, ["*/5,10".toList, ['*'], ['*'], ['*'], ['*']] = s.fields ∧
      (Displayable "*/5,10 * * * *".toList ↔ ¬StepLedList s) :=
  accepted_expression_displayable_iff (e := "*/5,10 * * * *".toList) (by decide)

end CronPanel.Api.Display
