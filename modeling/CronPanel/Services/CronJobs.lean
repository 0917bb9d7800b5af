import Mathlib.Data.Char
import Mathlib.Data.List.Lex
import Mathlib.Data.List.Sort
import CronPanel.Cron.Grammar
import CronPanel.Library.JsonText
import CronPanel.Services.Audit
import CronPanel.Schemas.Bodies

namespace CronPanel.Services.CronJobs

open Library.Strings Library.JsonData Library.JsonText Library.Tables Library.Fallible
open Core.Permissions Data.Records Data.Repositories Cron.Validator Cron.Elements Cron.Grammar
open Schemas.Bodies Audit

/-- The errors of the service, and what escapes it from the parser. -/
inductive CronJobError
  | notFound
  | accessDenied
  | scriptReferenceNotFound
  | raised (error : PyError)
  deriving DecidableEq

/-- An authenticated user, with the row of its account. -/
structure Actor where
  id : ℕ
  user : User

/-- The sender of a request and the moment it is served. -/
structure Call where
  actor : Actor
  now : Instant
  ipAddress : Option Text

/-- The dictionary `changes`. -/
def changesJson (changes : List Change) : Json :=
  .object (changes.map fun change ↦
    (change.field, .object [("from".toList, change.before), ("to".toList, change.after)]))

def serializeChanges (changes : List Change) : Option Text :=
  if changes.isEmpty then none else some (dumps (changesJson changes))

def applySchedule (job : CronJob) (expression : Text) : Except CronJobError CronJob :=
  match parseCronExpression (some expression) with
  | .ok [minute, hour, dayOfMonth, month, dayOfWeek] =>
    .ok { job with
      scheduleExpression := [' '].intercalate [minute, hour, dayOfMonth, month, dayOfWeek]
      minute, hour, dayOfMonth, month, dayOfWeek }
  | .ok _ => .error (.raised .valueError)
  | .error e => .error (.raised e)

def recordHistory (call : Call) (jobId : ℕ) (action : HistoryAction) (changes : List Change)
    (db : Database) : Database :=
  let entry : CronJobHistory :=
    { cronJobId := jobId
      userId := some call.actor.id
      username := some call.actor.user.username
      action
      changes := serializeChanges changes
      timestamp := call.now }
  { db with cronJobHistory := (db.cronJobHistory.insert entry).2 }

/-- The audit entry of an operation on a cron job. -/
def recordJobEvent (call : Call) (action : AuditAction) (jobId : ℕ) (details : List (Text × Json))
    (db : Database) : Database :=
  recordEvent call.now
    { action
      userId := some call.actor.id
      username := some call.actor.user.username
      resource := some "cron_job".toList
      resourceId := some (decimal jobId)
      ipAddress := call.ipAddress
      details } db

def canManage (job : CronJob) (actor : Actor) : Bool :=
  job.ownerId == actor.id || isFullAccessRole actor.user.role

def getJobForRead (db : Database) (jobId : ℕ) : Except CronJobError CronJob :=
  (db.liveJob jobId).elim (.error .notFound) .ok

def getJobForWrite (db : Database) (jobId : ℕ) (actor : Actor) : Except CronJobError CronJob := do
  let job ← getJobForRead db jobId
  if canManage job actor then .ok job else .error .accessDenied

def validateScriptReference (db : Database) (scriptId : Option ℕ) : Except CronJobError Unit :=
  match scriptId with
  | none => .ok ()
  | some id => if (db.liveScript id).isSome then .ok () else .error .scriptReferenceNotFound

/-- `create_cron_job`; the new row comes with its id. -/
def createCronJob (call : Call) (body : CronJobCreate) (db : Database) :
    Except CronJobError (ℕ × Database) := do
  validateScriptReference db body.scriptId
  let job ← applySchedule
    { name := body.name
      description := body.description
      command := body.command
      scheduleExpression := []
      minute := []
      hour := []
      dayOfMonth := []
      month := []
      dayOfWeek := []
      isActive := true
      isDeleted := false
      ownerId := call.actor.id
      scriptId := body.scriptId
      createdAt := call.now
      updatedAt := call.now } body.scheduleExpression
  let (id, cronJobs) := db.cronJobs.insert job
  let db := recordHistory call id .created [] { db with cronJobs }
  .ok (id, recordJobEvent call .cronJobCreated id
    [("name".toList, .text job.name), ("schedule_expression".toList, .text job.scheduleExpression)] db)

def getCronJob (db : Database) (jobId : ℕ) (actor : Actor) : Except CronJobError CronJob := do
  let job ← getJobForRead db jobId
  if canManage job actor then .ok job else .error .notFound

def listCronJobs (db : Database) (actor : Actor) (filters : CronJobFilter) : List (ℕ × CronJob) :=
  db.listJobs (if isFullAccessRole actor.user.role then filters
    else { filters with ownerId := some actor.id })

/-- One of the `candidates` of `update_cron_job`, and the reference to the script. -/
def setField {α : Type} [DecidableEq α] (field : Text) (encode : α → Json)
    (new : Option α) (old : α) :
    α × List Change :=
  match new with
  | none => (old, [])
  | some value => if value = old then (old, []) else (value, [⟨field, encode old, encode value⟩])

def setSchedule (new : Option Text) (job : CronJob) : Except CronJobError (CronJob × List Change) :=
  match new with
  | none => .ok (job, [])
  | some expression =>
    if expression = job.scheduleExpression then .ok (job, [])
    else do
      let changed ← applySchedule job expression
      .ok (changed, [⟨"schedule_expression".toList, .text job.scheduleExpression,
        .text changed.scheduleExpression⟩])

def changedFields (changes : List Change) : Json :=
  .list (((changes.map Change.field).insertionSort (· ≤ ·)).map .text)

/-- The row after `update_cron_job`, and what it records as changed. -/
def editCronJob (body : CronJobUpdate) (job : CronJob) :
    Except CronJobError (CronJob × List Change) := do
  let name := setField "name".toList .text body.name job.name
  let description :=
    setField "description".toList (ofOption .text) (body.description.map some) job.description
  let command := setField "command".toList .text body.command job.command
  let script := setField "script_id".toList (ofOption natural) (body.scriptId.map some) job.scriptId
  let (job, onSchedule) ← setSchedule body.scheduleExpression
    { job with name := name.1, description := description.1, command := command.1, scriptId := script.1 }
  .ok (job, name.2 ++ description.2 ++ command.2 ++ script.2 ++ onSchedule)

/-- `onupdate=utc_now` of a row that is written back. -/
def touch (now : Instant) (old new : CronJob) : CronJob :=
  if new = old then old else { new with updatedAt := now }

def updateCronJob (call : Call) (jobId : ℕ) (body : CronJobUpdate) (db : Database) :
    Except CronJobError Database := do
  let job ← getJobForWrite db jobId call.actor
  validateScriptReference db body.scriptId
  let (edited, changes) ← editCronJob body job
  if changes = [] then .ok db
  else
    let db := { db with cronJobs := db.cronJobs.set jobId (touch call.now job edited) }
    let db := recordHistory call jobId .updated changes db
    .ok (recordJobEvent call .cronJobUpdated jobId
      [("name".toList, .text edited.name), ("changed_fields".toList, changedFields changes)] db)

def updateCronJobStatus (call : Call) (jobId : ℕ) (isActive : Bool) (db : Database) :
    Except CronJobError Database := do
  let job ← getJobForWrite db jobId call.actor
  if job.isActive = isActive then .ok db
  else
    let db :=
      { db with cronJobs := db.cronJobs.set jobId { job with isActive, updatedAt := call.now } }
    let db := recordHistory call jobId (if isActive then .enabled else .disabled) [] db
    .ok (recordJobEvent call (if isActive then .cronJobEnabled else .cronJobDisabled) jobId
      [("name".toList, .text job.name), ("is_active".toList, .bool isActive)] db)

def deleteCronJob (call : Call) (jobId : ℕ) (db : Database) : Except CronJobError Database := do
  let job ← getJobForWrite db jobId call.actor
  let deleted := { job with isDeleted := true, isActive := false, updatedAt := call.now }
  let db := { db with cronJobs := db.cronJobs.set jobId deleted }
  let db := recordHistory call jobId .deleted [] db
  .ok (recordJobEvent call .cronJobDeleted jobId
    [("name".toList, .text job.name), ("schedule_expression".toList, .text job.scheduleExpression)] db)

/-- `list_cron_job_history`, which finds soft-deleted jobs too. -/
def listCronJobHistory (db : Database) (jobId : ℕ) (actor : Actor) (limit offset : ℤ) :
    Except CronJobError (List (ℕ × CronJobHistory)) :=
  match db.cronJobs.get? jobId with
  | none => .error .notFound
  | some job =>
    if canManage job actor then .ok (db.listForJob jobId limit offset) else .error .notFound

section

variable {call : Call} {db db' : Database} {id : ℕ}

def withSchedule (job : CronJob) (s : Schedule) : CronJob :=
  { job with
    scheduleExpression := s.text
    minute := s.fieldText .minute
    hour := s.fieldText .hour
    dayOfMonth := s.fieldText .dayOfMonth
    month := s.fieldText .month
    dayOfWeek := s.fieldText .dayOfWeek }

theorem applySchedule_text (job : CronJob) (s : Schedule) :
    applySchedule job s.text = .ok (withSchedule job s) := by
  rw [applySchedule, parse_text]
  rfl

theorem getJobForWrite_ok {job : CronJob} (h : getJobForWrite db id call.actor = .ok job) :
    db.liveJob id = some job ∧ canManage job call.actor := by
  obtain ⟨job', hj, h⟩ := bind_eq_ok.mp h
  unfold getJobForRead at hj
  split_ifs at h with hc
  cases h
  cases hl : db.liveJob id with
  | none =>
    rw [hl] at hj
    cases hj
  | some job' =>
    rw [hl] at hj
    cases hj
    exact ⟨rfl, hc⟩

theorem validateScriptReference_ok {k : ℕ} (h : validateScriptReference db (some k) = .ok ()) :
    ∃ script, db.liveScript k = some script := by
  simp only [validateScriptReference] at h
  split_ifs at h with hs
  exact Option.isSome_iff_exists.mp hs

theorem createCronJob_ok {body : CronJobCreate} {s : Schedule}
    (hs : body.scheduleExpression = s.text)
    (h : createCronJob call body db = .ok (id, db')) :
    validateScriptReference db body.scriptId = .ok () ∧ id = db.cronJobs.nextId ∧
      db'.scripts = db.scripts ∧
      ∃ job, db'.cronJobs = db.cronJobs.set id job ∧ job.scheduleExpression = s.text ∧
        job.scriptId = body.scriptId := by
  obtain ⟨⟨⟩, href, h⟩ := bind_eq_ok.mp h
  rw [hs, applySchedule_text, ok_bind] at h
  cases h
  exact ⟨href, rfl, rfl, _, rfl, rfl, rfl⟩

theorem setField_fst {α : Type} [DecidableEq α] (field : Text) (encode : α → Json) (new : Option α)
    (old : α) : (setField field encode new old).1 = new.getD old := by
  unfold setField
  split
  · rfl
  · split_ifs with he
    · exact he.symm
    · rfl

theorem setField_snd {α : Type} [DecidableEq α] {field : Text} {encode : α → Json} {new : Option α}
    {old : α} : (setField field encode new old).2 = [] ↔ new.getD old = old := by
  unfold setField
  split
  · simp
  · split_ifs with he
    · simp [he]
    · simpa using he

theorem setSchedule_ok {new : Option Text} {job edited : CronJob} {changes : List Change}
    (hnew : ∀ t, new = some t → ∃ s : Schedule, t = s.text)
    (h : setSchedule new job = .ok (edited, changes)) :
    edited = job ∧ changes = [] ∧ (∀ t, new = some t → t = job.scheduleExpression) ∨
      changes ≠ [] ∧ ∃ s : Schedule, new = some s.text ∧ edited = withSchedule job s := by
  unfold setSchedule at h
  split at h
  · cases h
    exact .inl ⟨rfl, rfl, by simp⟩
  · rename_i t
    split_ifs at h with he
    · cases h
      exact .inl ⟨rfl, rfl, by simp [he]⟩
    · obtain ⟨s, rfl⟩ := hnew t rfl
      rw [applySchedule_text, ok_bind] at h
      cases h
      exact .inr ⟨by simp, s, rfl, rfl⟩

theorem editCronJob_ok {body : CronJobUpdate} {job edited : CronJob} {changes : List Change}
    (hbody : ∀ t, body.scheduleExpression = some t → ∃ s : Schedule, t = s.text)
    (h : editCronJob body job = .ok (edited, changes)) :
    edited.isActive = job.isActive ∧ edited.isDeleted = job.isDeleted ∧
      edited.scriptId = (body.scriptId.map some).getD job.scriptId ∧
      edited.scheduleExpression = body.scheduleExpression.getD job.scheduleExpression ∧
      (changes = [] → edited = job) := by
  simp only [editCronJob, setField_fst] at h
  obtain ⟨⟨edited', onSchedule⟩, hs, h⟩ := bind_eq_ok.mp h
  cases h
  rcases setSchedule_ok hbody hs with ⟨rfl, rfl, hsame⟩ | ⟨hne, s, hnew, rfl⟩
  · refine ⟨rfl, rfl, rfl, ?_, fun hnil ↦ ?_⟩
    · cases hb : body.scheduleExpression with
      | none => rfl
      | some t => exact (hsame t hb).symm
    · simp only [List.append_eq_nil_iff, setField_snd] at hnil
      obtain ⟨⟨⟨⟨hname, hdescription⟩, hcommand⟩, hscript⟩, -⟩ := hnil
      rw [hname, hdescription, hcommand, hscript]
  · refine ⟨rfl, rfl, rfl, ?_, fun hnil ↦ absurd (List.append_eq_nil_iff.mp hnil).2 hne⟩
    rw [hnew]
    rfl

/-- What a successful `update_cron_job` leaves in the tables of the scheduler. -/
theorem updateCronJob_ok {body : CronJobUpdate}
    (hbody : ∀ t, body.scheduleExpression = some t → ∃ s : Schedule, t = s.text)
    (h : updateCronJob call id body db = .ok db') :
    validateScriptReference db body.scriptId = .ok () ∧ db'.scripts = db.scripts ∧
      ∃ job stored, db.liveJob id = some job ∧ db'.cronJobs = db.cronJobs.set id stored ∧
        stored.isActive = job.isActive ∧ stored.isDeleted = job.isDeleted ∧
        stored.scriptId = (body.scriptId.map some).getD job.scriptId ∧
        stored.scheduleExpression = body.scheduleExpression.getD job.scheduleExpression := by
  obtain ⟨job, hjob, h⟩ := bind_eq_ok.mp h
  obtain ⟨hlive, -⟩ := getJobForWrite_ok hjob
  obtain ⟨⟨⟩, href, h⟩ := bind_eq_ok.mp h
  obtain ⟨⟨edited, changes⟩, hedit, h⟩ := bind_eq_ok.mp h
  obtain ⟨hactive, hdeleted, hscript, hschedule, hnil⟩ := editCronJob_ok hbody hedit
  dsimp only at h
  split_ifs at h with hc
  · cases h
    obtain rfl := hnil hc
    have hset := Table.set_get? (Database.liveJob_eq_some.mp hlive).1
    exact ⟨href, rfl, edited, edited, hlive, hset.symm, rfl, rfl, hscript, hschedule⟩
  · cases h
    refine ⟨href, rfl, job, touch call.now job edited, hlive, rfl, ?_⟩
    unfold touch
    split_ifs with he
    · subst he
      exact ⟨hactive, hdeleted, hscript, hschedule⟩
    · exact ⟨hactive, hdeleted, hscript, hschedule⟩

theorem updateCronJobStatus_ok {isActive : Bool}
    (h : updateCronJobStatus call id isActive db = .ok db') :
    db'.scripts = db.scripts ∧
      ∃ job stored, db.liveJob id = some job ∧ db'.cronJobs = db.cronJobs.set id stored ∧
        stored.isActive = isActive ∧ stored.isDeleted = job.isDeleted ∧
        stored.scriptId = job.scriptId ∧ stored.scheduleExpression = job.scheduleExpression := by
  obtain ⟨job, hjob, h⟩ := bind_eq_ok.mp h
  obtain ⟨hlive, -⟩ := getJobForWrite_ok hjob
  split_ifs at h with hsame
  · cases h
    have hset := Table.set_get? (Database.liveJob_eq_some.mp hlive).1
    exact ⟨rfl, job, job, hlive, hset.symm, hsame, rfl, rfl, rfl⟩
  all_goals
    cases h
    exact ⟨rfl, job, _, hlive, rfl, rfl, rfl, rfl, rfl⟩

theorem deleteCronJob_ok (h : deleteCronJob call id db = .ok db') :
    db'.scripts = db.scripts ∧
      ∃ job stored, db.liveJob id = some job ∧ db'.cronJobs = db.cronJobs.set id stored ∧
        stored.isDeleted = true ∧ stored.scriptId = job.scriptId ∧
        stored.scheduleExpression = job.scheduleExpression := by
  obtain ⟨job, hjob, h⟩ := bind_eq_ok.mp h
  obtain ⟨hlive, -⟩ := getJobForWrite_ok hjob
  cases h
  exact ⟨rfl, job, _, hlive, rfl, rfl, rfl, rfl⟩

end

end CronPanel.Services.CronJobs
