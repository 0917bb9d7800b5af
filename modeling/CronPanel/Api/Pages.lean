import CronPanel.Api.CronJobs
import CronPanel.Services.Executions

namespace CronPanel.Api.Pages

open Library.Strings Library.JsonData Library.Tables Library.Fallible Core.Permissions
open Data.Records Data.Repositories Services.CronJobs Services.Executions Errors CronJobs

structure CronJobHistoryResponse where
  id : ℕ
  cronJobId : ℕ
  username : Option Text
  action : HistoryAction
  changes : Option Json
  timestamp : Instant

def toHistoryResponse (entry : ℕ × CronJobHistory) : CronJobHistoryResponse where
  id := entry.1
  cronJobId := entry.2.cronJobId
  username := entry.2.username
  action := entry.2.action
  changes := parseChanges entry.2.changes
  timestamp := entry.2.timestamp

/-- `GET /{cron_job_id}/history`. -/
def getCronJobHistory (sender : Sender) (id : ℕ) (limit offset : ℤ) (db : Database) :
    Except HttpError (List CronJobHistoryResponse) := do
  let call ← requirePermission db sender .cronJobsRead
  let entries ← (listCronJobHistory db id call.actor limit offset).mapError ofCronJobError
  .ok (entries.map toHistoryResponse)

structure ExecutionResponse where
  id : ℕ
  cronJobId : Option ℕ
  cronJobName : Option Text
  scriptId : Option ℕ
  scriptName : Option Text
  trigger : Text
  status : Text
  exitCode : Option ℤ
  stdout : Option Text
  stderr : Option Text
  error : Option Text
  durationMs : Option ℕ
  username : Option Text
  ipAddress : Option Text
  startedAt : Instant
  finishedAt : Option Instant

/-- `_to_response`, with the job and the script of the relationships, deleted or not. -/
def toExecutionResponse (db : Database) (execution : ℕ × Execution) : ExecutionResponse where
  id := execution.1
  cronJobId := execution.2.cronJobId
  cronJobName := (execution.2.cronJobId.bind db.cronJobs.get?).map CronJob.name
  scriptId := execution.2.scriptId
  scriptName := (execution.2.scriptId.bind db.scripts.get?).map Script.name
  trigger := execution.2.trigger.name
  status := execution.2.status.name
  exitCode := execution.2.exitCode
  stdout := execution.2.stdout
  stderr := execution.2.stderr
  error := execution.2.error
  durationMs := execution.2.durationMs
  username := execution.2.username
  ipAddress := execution.2.ipAddress
  startedAt := execution.2.startedAt
  finishedAt := execution.2.finishedAt

/-- `GET /` of the executions. -/
def listExecutions (sender : Sender) (jobId : Option ℕ) (status : Option Text) (limit offset : ℤ)
    (db : Database) : Except HttpError (List ExecutionResponse) := do
  let call ← requirePermission db sender .executionsRead
  .ok ((Services.Executions.listExecutions db call.actor jobId status limit offset).map
    (toExecutionResponse db))

/-- `GET /{execution_id}` of the executions. -/
def getExecution (sender : Sender) (id : ℕ) (db : Database) : Except HttpError ExecutionResponse := do
  let call ← requirePermission db sender .executionsRead
  let execution ← (Services.Executions.getExecution db id call.actor).mapError fun _ ↦
    .detail 404 "EXECUTION_NOT_FOUND".toList "Ejecución no encontrada.".toList
  .ok (toExecutionResponse db (id, execution))

structure ScriptResponse where
  id : ℕ
  name : Text
  description : Option Text
  path : Text
  isEnabled : Bool
  createdBy : Option ℕ
  createdByUsername : Option Text
  createdAt : Instant
  updatedAt : Instant

def toScriptResponse (db : Database) (script : ℕ × Script) : ScriptResponse where
  id := script.1
  name := script.2.name
  description := script.2.description
  path := script.2.path
  isEnabled := script.2.isEnabled
  createdBy := script.2.createdBy
  createdByUsername := (script.2.createdBy.bind db.users.get?).map User.username
  createdAt := script.2.createdAt
  updatedAt := script.2.updatedAt

/-- `list_scripts` of the repository: the newest come first. -/
def scriptRows (db : Database) : List (ℕ × Script) :=
  (db.scripts.rows.filter fun r ↦ !r.2.isDeleted).reverse.take 500

/-- `GET /` of the scripts. -/
def listScripts (sender : Sender) (db : Database) : Except HttpError (List ScriptResponse) := do
  let _ ← requirePermission db sender .scriptsRead
  .ok ((scriptRows db).map (toScriptResponse db))

/-- The size of a page for a `limit`, as the listings clamp it. -/
def pageSize (limit : ℤ) : ℕ := (max 1 (min limit 500)).toNat

theorem page_eq {α : Type} (limit : ℤ) (offset : ℕ) (rows : List α) :
    page limit offset rows = (rows.drop offset).take (pageSize limit) := by
  rw [page, pageSize, max_eq_right (Int.natCast_nonneg offset), Int.toNat_natCast]

section

variable {sender : Sender} {db : Database} {id : ℕ} {limit offset : ℤ}

theorem getCronJobHistory_ok {page : List CronJobHistoryResponse}
    (h : getCronJobHistory sender id limit offset db = .ok page) :
    page = (db.listForJob id limit offset).map toHistoryResponse := by
  obtain ⟨call, -, h⟩ := bind_eq_ok.mp h
  obtain ⟨entries, hentries, h⟩ := bind_eq_ok.mp h
  have hlisted := mapError_eq_ok.mp hentries
  unfold listCronJobHistory at hlisted
  cases hjob : db.cronJobs.get? id with
  | none =>
    rw [hjob] at hlisted
    cases hlisted
  | some job =>
    rw [hjob] at hlisted
    dsimp only at hlisted
    split_ifs at hlisted
    cases hlisted
    cases h
    rfl

theorem listScripts_ok {rows : List ScriptResponse} (h : listScripts sender db = .ok rows) :
    rows = (scriptRows db).map (toScriptResponse db) := by
  obtain ⟨call, -, h⟩ := bind_eq_ok.mp h
  exact (Except.ok.inj h).symm

theorem liveScript_of_listed {rows : List ScriptResponse} (h : listScripts sender db = .ok rows)
    {script : ScriptResponse} (hmem : script ∈ rows) : ∃ row, db.liveScript script.id = some row := by
  rw [listScripts_ok h] at hmem
  obtain ⟨⟨k, row⟩, hrow, rfl⟩ := List.mem_map.mp hmem
  obtain ⟨hrow, hkept⟩ := List.mem_filter.mp (List.mem_reverse.mp (List.mem_of_mem_take hrow))
  exact ⟨row, Database.liveScript_eq_some.mpr ⟨Table.mem_rows.mp hrow, by simpa using hkept⟩⟩

theorem listExecutions_ok {jobId : Option ℕ} {status : Option Text} {page : List ExecutionResponse}
    (h : listExecutions sender jobId status limit offset db = .ok page) :
    ∃ call, requirePermission db sender .executionsRead = .ok call ∧
      page = (Services.Executions.listExecutions db call.actor jobId status limit offset).map
        (toExecutionResponse db) := by
  obtain ⟨call, hcall, h⟩ := bind_eq_ok.mp h
  exact ⟨call, hcall, (Except.ok.inj h).symm⟩

end

end CronPanel.Api.Pages
