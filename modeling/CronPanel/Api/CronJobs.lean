import CronPanel.Cron.Displayable
import CronPanel.Library.JsonText
import CronPanel.Scheduler.Service
import CronPanel.Api.Errors

namespace CronPanel.Api.CronJobs

open Library.Strings Library.JsonData Library.JsonText Library.Tables Library.Fallible
open Core.Permissions Data.Records Data.Repositories
open Cron.Validator Cron.Elements Cron.Grammar Cron.Describe Cron.Displayable
open Schemas.Bodies Scheduler.Triggers Scheduler.Service Services.CronJobs Errors

structure CronJobResponse where
  id : ℕ
  name : Text
  description : Option Text
  command : Text
  scheduleExpression : Text
  minute : Text
  hour : Text
  dayOfMonth : Text
  month : Text
  dayOfWeek : Text
  humanDescription : Text
  isActive : Bool
  ownerId : ℕ
  scriptId : Option ℕ
  scriptName : Option Text
  nextRunAt : Option Instant
  lastExecutionStatus : Option Status
  lastExecutionAt : Option Instant
  createdAt : Instant
  updatedAt : Instant
  deriving DecidableEq

/-- `_to_response`, where `nextRun` is what the running scheduler answers for the job. -/
def toResponse (db : Database) (nextRun : Option Instant) (id : ℕ) (job : CronJob) :
    Except PyError CronJobResponse := do
  let latest := if job.isDeleted then none else db.latestForJob id
  let humanDescription ← describeCronExpression (some job.scheduleExpression)
  .ok
    { id
      name := job.name
      description := job.description
      command := job.command
      scheduleExpression := job.scheduleExpression
      minute := job.minute
      hour := job.hour
      dayOfMonth := job.dayOfMonth
      month := job.month
      dayOfWeek := job.dayOfWeek
      humanDescription
      isActive := job.isActive
      ownerId := job.ownerId
      scriptId := job.scriptId
      scriptName := (job.scriptId.bind db.scripts.get?).map Script.name
      nextRunAt := if job.isDeleted then none else nextRun
      lastExecutionStatus := latest.map Execution.status
      lastExecutionAt := latest.map Execution.startedAt
      createdAt := job.createdAt
      updatedAt := job.updatedAt }

/-- `_parse_changes`. -/
def parseChanges : Option Text → Option Json
  | none => none
  | some raw =>
    if raw = [] then none
    else
      match loads raw with
      | some (.object entries) => some (.object entries)
      | _ => none

/-- `POST /`, up to its commit; the id is that of the new job. -/
def createCronJob (sender : Sender) (body : CronJobCreate) (db : Database) :
    Except HttpError (ℕ × Database) := do
  let call ← requirePermission db sender .cronJobsCreate
  let body ← checkBody body.validate
  (Services.CronJobs.createCronJob call body db).mapError ofCronJobError

def updateCronJob (sender : Sender) (id : ℕ) (body : CronJobUpdate) (db : Database) :
    Except HttpError Database := do
  let call ← requirePermission db sender .cronJobsUpdate
  let body ← checkBody body.validate
  (Services.CronJobs.updateCronJob call id body db).mapError ofCronJobError

def updateCronJobStatus (sender : Sender) (id : ℕ) (isActive : Bool) (db : Database) :
    Except HttpError Database := do
  let call ← requirePermission db sender .cronJobsEnable
  (Services.CronJobs.updateCronJobStatus call id isActive db).mapError ofCronJobError

def deleteCronJob (sender : Sender) (id : ℕ) (db : Database) : Except HttpError Database := do
  let call ← requirePermission db sender .cronJobsDelete
  (Services.CronJobs.deleteCronJob call id db).mapError ofCronJobError

def answerJob (db : Database) (nextRun : ℕ → Option Instant) (id : ℕ) (job : CronJob) :
    Except HttpError CronJobResponse :=
  (toResponse db (nextRun id) id job).mapError fun _ ↦ .internal

def getCronJob (sender : Sender) (nextRun : ℕ → Option Instant) (id : ℕ) (db : Database) :
    Except HttpError CronJobResponse := do
  let call ← requirePermission db sender .cronJobsRead
  let job ← (Services.CronJobs.getCronJob db id call.actor).mapError ofCronJobError
  answerJob db nextRun id job

def listCronJobs (sender : Sender) (nextRun : ℕ → Option Instant) (filters : CronJobFilter)
    (db : Database) :
    Except HttpError (List CronJobResponse) := do
  let call ← requirePermission db sender .cronJobsRead
  (Services.CronJobs.listCronJobs db call.actor filters).mapM fun r ↦ answerJob db nextRun r.1 r.2

structure CronValidateResponse where
  valid : Bool
  normalizedExpression : Option Text
  fields : Option (List Text)
  description : Option Text
  errorCode : Option ErrorCode
  errorMessage : Option Text
  errorField : Option Field
  deriving DecidableEq

/-- The description that `POST /validate` adds; of what the describer can raise, the
route catches the validator's own error only. -/
def validateDescription (result : CronValidation) : Except PyError (Option Text) :=
  match result.valid, result.normalizedExpression with
  | true, some normalized =>
    match describeCronExpression (some normalized) with
    | .ok description => .ok (some description)
    | .error (.validation _) => .ok none
    | .error e => .error e
  | _, _ => .ok none

def validateRoute (scheduleExpression : Text) : Except PyError CronValidateResponse := do
  let result ← validateCronExpression (some scheduleExpression)
  let description ← validateDescription result
  .ok
    { valid := result.valid
      normalizedExpression := result.normalizedExpression
      fields := result.fields
      description
      errorCode := result.errorCode
      errorMessage := result.errorMessage
      errorField := result.errorField }

end CronPanel.Api.CronJobs
