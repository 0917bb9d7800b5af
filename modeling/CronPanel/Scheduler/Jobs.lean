import CronPanel.Services.Executions

namespace CronPanel.Scheduler.Jobs

open Library.Strings Library.JsonData Data.Records Data.Repositories Services.Audit Services.Executions

def recordSkip (now : Instant) (jobId : ℕ) (job : CronJob) (reason : Text)
    (db : Database) : Database :=
  recordEvent now
    { action := .executionSkipped
      username := some systemActorUsername
      resource := some "cron_job".toList
      resourceId := some (decimal jobId)
      details :=
        [("cron_job_id".toList, natural jobId), ("cron_job_name".toList, .text job.name),
          ("reason".toList, .text reason)] } db

def alreadyRunning : Text := "execution skipped because cron job is already running".toList

/-- The reason recorded for an error of the service; the others are only logged. -/
def skipReason : ExecutionError → Option Text
  | .notFound => some "execution skipped because cron job no longer exists".toList
  | .jobInactive => some "execution skipped because cron job is paused".toList
  | .scriptNotLinked | .scriptUnavailable =>
    some "execution skipped because the bound script is unavailable".toList
  | .accessDenied | .path _ | .unexpected => none

def recordFailure (now : Instant) (jobId : ℕ) (job : CronJob) (e : ExecutionError)
    (db : Database) : Database :=
  (skipReason e).elim db fun reason ↦ recordSkip now jobId job reason db

def runScheduledJob (env : Environment) (jobId : ℕ) (db : Database) : Database :=
  match db.liveJob jobId with
  | none => db
  | some job =>
    if !job.isActive then db
    else if db.hasRunningExecution jobId then recordSkip env.now jobId job alreadyRunning db
    else
      match runScheduledCronJob env jobId job db with
      | (db, .ok _) => db
      | (db, .error e) => recordFailure env.now jobId job e db

theorem recordFailure_fields (now : Instant) (jobId : ℕ) (job : CronJob) (e : ExecutionError)
    (db : Database) :
    (recordFailure now jobId job e db).executions = db.executions ∧
      (recordFailure now jobId job e db).cronJobs = db.cronJobs ∧
      (recordFailure now jobId job e db).scripts = db.scripts := by
  unfold recordFailure
  cases skipReason e <;> exact ⟨rfl, rfl, rfl⟩

end CronPanel.Scheduler.Jobs
