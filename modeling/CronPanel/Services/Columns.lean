import CronPanel.Services.CronJobs

namespace CronPanel.Services.Columns

open Library.Strings Library.Tables Library.Fallible Data.Records Data.Repositories
open Cron.Validator Cron.Elements Cron.Grammar Schemas.Bodies CronJobs

/-- The columns of a job that are derived from its expression. -/
def derivedColumns (job : CronJob) : List Text :=
  [job.minute, job.hour, job.dayOfMonth, job.month, job.dayOfWeek]

/-- The derived columns are those of the expression, and the expression is made of them. -/
structure Derived (job : CronJob) : Prop where
  parsed : parseCronExpression (some job.scheduleExpression) = .ok (derivedColumns job)
  joined : job.scheduleExpression = [' '].intercalate (derivedColumns job)

/-- The row with the values of a body but for its schedule. -/
def withBody (body : CronJobUpdate) (job : CronJob) : CronJob :=
  { job with
    name := body.name.getD job.name
    description := (body.description.map some).getD job.description
    command := body.command.getD job.command
    scriptId := (body.scriptId.map some).getD job.scriptId }

/-- The row after an update, when the body carries the texts of schedules. -/
def Edited (body : CronJobUpdate) (job edited : CronJob) : Prop :=
  (∀ t, body.scheduleExpression = some t → t = job.scheduleExpression) ∧ edited = withBody body job ∨
  ∃ s : Schedule, body.scheduleExpression = some s.text ∧ s.text ≠ job.scheduleExpression ∧
    edited = withSchedule (withBody body job) s

section

variable {job edited : CronJob} {body : CronJobUpdate} {call : Call} {db db' : Database} {id : ℕ}

theorem derived_withSchedule (job : CronJob) (s : Schedule) : Derived (withSchedule job s) :=
  ⟨parse_text s, rfl⟩

theorem Derived.congr (h : Derived job) (hexpression : edited.scheduleExpression = job.scheduleExpression)
    (hcolumns : derivedColumns edited = derivedColumns job) : Derived edited := by
  obtain ⟨hparsed, hjoined⟩ := h
  constructor
  · rw [hexpression, hcolumns]
    exact hparsed
  · rw [hexpression, hcolumns]
    exact hjoined

theorem Edited.derived (h : Edited body job edited) (hjob : Derived job) : Derived edited := by
  rcases h with ⟨-, rfl⟩ | ⟨s, -, -, rfl⟩
  · exact hjob.congr rfl rfl
  · exact derived_withSchedule _ s

theorem editCronJob_edited {changes : List Change}
    (hbody : ∀ t, body.scheduleExpression = some t → ∃ s : Schedule, t = s.text)
    (h : editCronJob body job = .ok (edited, changes)) : Edited body job edited := by
  simp only [editCronJob, setField_fst] at h
  obtain ⟨⟨rescheduled, onSchedule⟩, hset, h⟩ := bind_eq_ok.mp h
  cases h
  cases hexpression : body.scheduleExpression with
  | none =>
    rw [hexpression] at hset
    cases hset
    exact .inl ⟨fun t ht ↦ absurd (hexpression.symm.trans ht) (by simp), rfl⟩
  | some t =>
    obtain ⟨s, rfl⟩ := hbody t hexpression
    rw [hexpression] at hset
    simp only [setSchedule] at hset
    split_ifs at hset with hsame
    · cases hset
      refine .inl ⟨?_, rfl⟩
      intro t ht
      obtain rfl := Option.some.inj (hexpression.symm.trans ht)
      exact hsame
    · rw [applySchedule_text, ok_bind] at hset
      cases hset
      exact .inr ⟨s, hexpression, hsame, rfl⟩

/-- An update that leaves the row as it is records no change. -/
theorem editCronJob_same {changes : List Change}
    (hbody : ∀ t, body.scheduleExpression = some t → ∃ s : Schedule, t = s.text)
    (h : editCronJob body job = .ok (job, changes)) : changes = [] := by
  have hedited := editCronJob_edited hbody h
  simp only [editCronJob, setField_fst] at h
  obtain ⟨⟨rescheduled, onSchedule⟩, hset, h⟩ := bind_eq_ok.mp h
  obtain ⟨-, rfl⟩ := Prod.mk.inj (Except.ok.inj h)
  rcases hedited with ⟨hsame, hrow⟩ | ⟨s, -, hne, hrow⟩
  · have hschedule : onSchedule = [] := by
      rcases setSchedule_ok hbody hset with ⟨-, hnil, -⟩ | ⟨-, s, hs, -⟩
      · exact hnil
      · rw [hs, setSchedule, if_pos (by exact hsame s.text hs)] at hset
        exact (Prod.mk.inj (Except.ok.inj hset)).2.symm
    simp only [List.append_eq_nil_iff, setField_snd]
    refine ⟨⟨⟨⟨?_, ?_⟩, ?_⟩, ?_⟩, hschedule⟩
    · exact (congrArg Data.Records.CronJob.name hrow).symm
    · exact (congrArg Data.Records.CronJob.description hrow).symm
    · exact (congrArg Data.Records.CronJob.command hrow).symm
    · exact (congrArg Data.Records.CronJob.scriptId hrow).symm
  · exact absurd (congrArg Data.Records.CronJob.scheduleExpression hrow).symm hne

theorem touch_eq (now : Instant) (old new : CronJob) :
    ∃ t, touch now old new = { new with updatedAt := t } := by
  unfold touch
  split_ifs with h
  · exact ⟨old.updatedAt, by rw [h]⟩
  · exact ⟨now, rfl⟩

/-- The row that `create_cron_job` inserts. -/
theorem createCronJob_row {body : CronJobCreate} {s : Schedule}
    (hs : body.scheduleExpression = s.text) (h : createCronJob call body db = .ok (id, db')) :
    ∃ row, db'.cronJobs = db.cronJobs.set id (withSchedule row s) ∧ row.name = body.name := by
  obtain ⟨⟨⟩, -, h⟩ := bind_eq_ok.mp h
  rw [hs, applySchedule_text, ok_bind] at h
  cases h
  exact ⟨_, rfl, rfl⟩

/-- The row that `update_cron_job` leaves, with its history and trail where nothing is changed. -/
theorem updateCronJob_row
    (hbody : ∀ t, body.scheduleExpression = some t → ∃ s : Schedule, t = s.text)
    (h : updateCronJob call id body db = .ok db') :
    ∃ job edited t, db.liveJob id = some job ∧ canManage job call.actor ∧ Edited body job edited ∧
      db'.cronJobs = db.cronJobs.set id { edited with updatedAt := t } ∧
      (edited = job → db' = db) := by
  obtain ⟨job, hjob, h⟩ := bind_eq_ok.mp h
  obtain ⟨hlive, hmanage⟩ := getJobForWrite_ok hjob
  obtain ⟨⟨⟩, -, h⟩ := bind_eq_ok.mp h
  obtain ⟨⟨edited, changes⟩, hedit, h⟩ := bind_eq_ok.mp h
  have hedited := editCronJob_edited hbody hedit
  dsimp only at h
  split_ifs at h with hnil
  · cases h
    obtain rfl : edited = job := (editCronJob_ok hbody hedit).2.2.2.2 hnil
    refine ⟨edited, edited, edited.updatedAt, hlive, hmanage, hedited, ?_, fun _ ↦ rfl⟩
    exact (Table.set_get? (Database.liveJob_eq_some.mp hlive).1).symm
  · cases h
    obtain ⟨t, ht⟩ := touch_eq call.now job edited
    refine ⟨job, edited, t, hlive, hmanage, hedited, ?_, ?_⟩
    · rw [← ht]
      rfl
    · rintro rfl
      exact absurd (editCronJob_same hbody hedit) hnil

/-- The rows that `update_cron_job_status` and `delete_cron_job` leave have the columns they had. -/
structure Kept (job stored : CronJob) : Prop where
  name : stored.name = job.name
  expression : stored.scheduleExpression = job.scheduleExpression
  columns : derivedColumns stored = derivedColumns job

theorem updateCronJobStatus_row {isActive : Bool}
    (h : updateCronJobStatus call id isActive db = .ok db') :
    ∃ job stored, db.cronJobs.get? id = some job ∧ Kept job stored ∧
      db'.cronJobs = db.cronJobs.set id stored := by
  obtain ⟨job, hjob, h⟩ := bind_eq_ok.mp h
  have hget := (Database.liveJob_eq_some.mp (getJobForWrite_ok hjob).1).1
  split_ifs at h
  · cases h
    exact ⟨job, job, hget, ⟨rfl, rfl, rfl⟩, (Table.set_get? hget).symm⟩
  all_goals
    cases h
    refine ⟨job, _, hget, ?_, rfl⟩
    exact ⟨rfl, rfl, rfl⟩

theorem deleteCronJob_row (h : deleteCronJob call id db = .ok db') :
    ∃ job stored, db.cronJobs.get? id = some job ∧ Kept job stored ∧
      db'.cronJobs = db.cronJobs.set id stored := by
  obtain ⟨job, hjob, h⟩ := bind_eq_ok.mp h
  have hget := (Database.liveJob_eq_some.mp (getJobForWrite_ok hjob).1).1
  cases h
  refine ⟨job, _, hget, ?_, rfl⟩
  exact ⟨rfl, rfl, rfl⟩

end

end CronPanel.Services.Columns
