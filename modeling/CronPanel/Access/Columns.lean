import CronPanel.Access.References
import CronPanel.Cron.Normalized
import CronPanel.Services.Columns

namespace CronPanel.Access.Columns

open Library.Strings Library.Tables Library.Fallible Library.Run Data.Records Data.Repositories
open Data.Repositories.Database Cron.Validator Cron.Elements Cron.Grammar Cron.Tokens
open Cron.Documented Cron.Normalized Schemas.Bodies Services.CronJobs Services.Scripts
open Services.Columns Api.Errors Api.Operations Api.Frames Scheduler.Eligibility References

def AllDerived (db : Database) : Prop := ∀ id job, db.cronJobs.get? id = some job → Derived job

section

variable {db db' : Database} {sender : Sender} {id : ℕ}

/-- The row that `POST /api/cron-jobs` inserts. -/
theorem createCronJob_stores {body : CronJobCreate}
    (h : Api.CronJobs.createCronJob sender body db = .ok (id, db')) :
    ∃ row, ∃ s : Schedule, CronJob.name body.name = .ok row.name ∧
      CronJob.scheduleExpression body.scheduleExpression = .ok s.text ∧
      db'.cronJobs = db.cronJobs.set id (withSchedule row s) := by
  obtain ⟨call, -, h⟩ := bind_eq_ok.mp h
  obtain ⟨checked, hc, h⟩ := bind_eq_ok.mp h
  have hvalid := mapError_eq_ok.mp hc
  obtain ⟨hname, hschedule⟩ := CronJobCreate.validate_fields hvalid
  obtain ⟨-, s, -, hs⟩ := CronJobCreate.validate_ok hvalid
  obtain ⟨row, hset, hrow⟩ := createCronJob_row hs (mapError_eq_ok.mp h)
  exact ⟨row, s, hrow ▸ hname, hs ▸ hschedule, hset⟩

/-- The row that `PUT /api/cron-jobs/{id}` leaves. -/
theorem updateCronJob_stores {body : CronJobUpdate}
    (h : Api.CronJobs.updateCronJob sender id body db = .ok db') :
    ∃ checked job edited t, body.validate = .ok checked ∧ db.liveJob id = some job ∧
      Edited checked job edited ∧ db'.cronJobs = db.cronJobs.set id { edited with updatedAt := t } := by
  obtain ⟨call, -, h⟩ := bind_eq_ok.mp h
  obtain ⟨checked, hc, h⟩ := bind_eq_ok.mp h
  have hvalid := mapError_eq_ok.mp hc
  obtain ⟨-, hschedule⟩ := CronJobUpdate.validate_ok hvalid
  have htexts : ∀ t, checked.scheduleExpression = some t → ∃ s : Schedule, t = s.text := by
    intro t ht
    rcases hschedule with ⟨-, hnone⟩ | ⟨x, s, -, -, hs⟩
    · rw [hnone] at ht
      cases ht
    · exact ⟨s, Option.some.inj (ht.symm.trans hs)⟩
  obtain ⟨job, edited, t, hlive, -, hedited, hset, -⟩ :=
    updateCronJob_row htexts (mapError_eq_ok.mp h)
  exact ⟨checked, job, edited, t, hvalid, hlive, hedited, hset⟩

theorem AllDerived.set (h : AllDerived db) {stored : CronJob}
    (hset : db'.cronJobs = db.cronJobs.set id stored) (hstored : Derived stored) :
    AllDerived db' := by
  intro j job hjob
  rw [hset] at hjob
  exact Table.forall_set (P := fun _ job ↦ Derived job) hstored (fun j b _ hb ↦ h j b hb) j job hjob

theorem AllDerived.of_eq (h : AllDerived db) (heq : db'.cronJobs = db.cronJobs) : AllDerived db' := by
  intro j job hjob
  rw [heq] at hjob
  exact h j job hjob

theorem commit_derived (hdb : AllDerived db) {op : Operation} {n : Notification}
    (h : op.commit db = .ok (db', n)) : AllDerived db' := by
  obtain ⟨call, hperformed⟩ := commit_ok h
  cases op with
  | createCronJob sender body =>
    obtain ⟨⟨id, db₁⟩, hc, h⟩ := bind_eq_ok.mp h
    cases h
    obtain ⟨row, s, -, -, hset⟩ := createCronJob_stores hc
    exact hdb.set hset (derived_withSchedule row s)
  | updateCronJob sender id body =>
    obtain ⟨db₁, hc, h⟩ := bind_eq_ok.mp h
    cases h
    obtain ⟨checked, job, edited, t, -, hlive, hedited, hset⟩ := updateCronJob_stores hc
    have hjob := hdb id job (liveJob_eq_some.mp hlive).1
    exact hdb.set hset ((hedited.derived hjob).congr rfl rfl)
  | updateCronJobStatus sender id isActive =>
    obtain ⟨job, stored, hjob, hkept, hset⟩ := updateCronJobStatus_row hperformed.2
    exact hdb.set hset ((hdb id job hjob).congr hkept.expression hkept.columns)
  | deleteCronJob sender id =>
    obtain ⟨job, stored, hjob, hkept, hset⟩ := deleteCronJob_row hperformed.2
    exact hdb.set hset ((hdb id job hjob).congr hkept.expression hkept.columns)
  | createScript sender host body =>
    obtain ⟨-, checked, id, hc⟩ := hperformed
    exact hdb.of_eq (createScript_live hc).1
  | updateScript sender host id body =>
    obtain ⟨-, checked, hc⟩ := hperformed
    exact hdb.of_eq (updateScript_live hc).1
  | deleteScript sender id => exact hdb.of_eq (deleteScript_ok hperformed.2).1

end

theorem serve_derived {db : Database} (h : AllDerived db) (op : Operation) :
    AllDerived (op.serve db) := by
  unfold Operation.serve
  cases hc : op.commit db with
  | error e => exact h
  | ok result => exact commit_derived h hc

/-- Normalizing is idempotent, never longer and keeps the values of each field, and along every
run the derived columns of a job are those of its expression, which is made of them. -/
theorem columns_never_drift {db : Database} (h : AllDerived db) (ops : List Operation) :
    (∀ (e : Text) (fields : List Text), parseCronExpression (some e) = .ok fields →
      ([' '].intercalate fields).length ≤ e.length ∧
      ∃ again, parseCronExpression (some ([' '].intercalate fields)) = .ok again ∧ again = fields ∧
        List.zipWith expandCronField Field.names again =
          List.zipWith expandCronField Field.names fields) ∧
    Always step (fun db ↦ ∀ id job, db.cronJobs.get? id = some job →
      parseCronExpression (some job.scheduleExpression) = .ok (derivedColumns job) ∧
      job.scheduleExpression = [' '].intercalate (derivedColumns job)) db ops := by
  have hall : Always step AllDerived db ops := by
    refine always ?_ h
    intro s op t hs hstep
    obtain rfl := Option.some.inj hstep
    exact serve_derived hs op
  constructor
  · intro e fields hparse
    exact ⟨length_normalized_le hparse, fields, parse_normalized hparse, rfl, rfl⟩
  · refine always_mono ?_ hall
    intro s hs id job hjob
    exact ⟨(hs id job hjob).parsed, (hs id job hjob).joined⟩

section Sample

theorem sample_allDerived : AllDerived sample := by
  intro id job hjob
  change (Table.set Table.empty 1 sampleJob).get? id = some job at hjob
  rw [Table.get?_set, Table.get?_empty] at hjob
  split_ifs at hjob
  obtain rfl := Option.some.inj hjob
  constructor
  · decide
  · decide

/-- A job on Sundays, which is moved to Saturdays. -/
def sundays : List Operation :=
  [.createCronJob ⟨1, 5, none⟩
      { name := "weekly".toList, command := "backup".toList, scheduleExpression := "05 9 * * 7".toList },
    .updateCronJob ⟨1, 6, none⟩ 2 { scheduleExpression := some "5  9 * * 06".toList }]

theorem columns_never_drift_sundays :
    ((exec step sample (sundays.take 1)).bind fun db ↦
        (db.cronJobs.get? 2).map fun job ↦ (job.scheduleExpression, job.dayOfWeek)) =
      some ("5 9 * * 0".toList, ['0']) ∧
    (∀ (e : Text) (fields : List Text), parseCronExpression (some e) = .ok fields →
      ([' '].intercalate fields).length ≤ e.length ∧
      ∃ again, parseCronExpression (some ([' '].intercalate fields)) = .ok again ∧ again = fields ∧
        List.zipWith expandCronField Field.names again =
          List.zipWith expandCronField Field.names fields) ∧
    Always step (fun db ↦ ∀ id job, db.cronJobs.get? id = some job →
      parseCronExpression (some job.scheduleExpression) = .ok (derivedColumns job) ∧
      job.scheduleExpression = [' '].intercalate (derivedColumns job)) sample sundays :=
  ⟨by decide +kernel, columns_never_drift sample_allDerived sundays⟩

end Sample

end CronPanel.Access.Columns
