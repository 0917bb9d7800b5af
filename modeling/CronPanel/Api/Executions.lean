import CronPanel.Services.Executions
import CronPanel.Api.Errors

namespace CronPanel.Api.Executions

open Library.Strings Core.Permissions Data.Records Data.Repositories Execution.Policy Services.Executions Errors

def ofExecutionError : ExecutionError → HttpError
  | .notFound => .detail 404 "CRON_JOB_NOT_FOUND".toList "Tarea no encontrada.".toList
  | .accessDenied => .detail 403 "CRON_JOB_FORBIDDEN".toList "No tiene permisos sobre esta tarea.".toList
  | .jobInactive =>
    .detail 400 "JOB_INACTIVE".toList "La tarea está desactivada y no se puede ejecutar.".toList
  | .scriptNotLinked => .detail 400 "SCRIPT_REQUIRED".toList "La tarea no tiene un script asignado.".toList
  | .scriptUnavailable =>
    .detail 400 "SCRIPT_UNAVAILABLE".toList "El script asignado no está disponible o está desactivado.".toList
  | .path e => ofPathError e
  | .unexpected => .internal

/-- `POST /{cron_job_id}/execute`, up to the call of `_run`. -/
def executeCall (sender : Sender) (id : ℕ) (db : Database) : Except HttpError RunCall := do
  let call ← requirePermission db sender .executionsExecute
  (manualCall db call id).mapError ofExecutionError

def executeCronJob (env : Environment) (sender : Sender) (id : ℕ) (db : Database) :
    Database × Except HttpError ℕ :=
  match requirePermission db sender .executionsExecute with
  | .error e => (db, .error e)
  | .ok call =>
    let (db, outcome) := runCronJob env call id db
    (db, outcome.mapError ofExecutionError)

end CronPanel.Api.Executions
