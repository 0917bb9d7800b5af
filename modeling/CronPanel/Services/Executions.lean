import CronPanel.Execution.Executor
import CronPanel.Services.CronJobs

namespace CronPanel.Services.Executions

open Library.Strings Library.JsonData Library.Tables Library.Fallible
open Core.Permissions Data.Records Data.Repositories Execution.Policy Execution.Executor Audit CronJobs

inductive ExecutionError
  | notFound
  | accessDenied
  | jobInactive
  | scriptNotLinked
  | scriptUnavailable
  | path (error : PathError)
  | unexpected
  deriving DecidableEq, Repr

def ExecutionError.ofExecute : ExecuteError → ExecutionError
  | .path e => path e
  | .unexpected => unexpected

/-- What a run finds outside the database, with the process it starts. -/
structure Environment where
  now : Instant
  host : Host
  outputMaxChars : ℕ
  durationMs : ℕ
  process : List Text → ProcessOutcome

def canExecute (job : CronJob) (actor : Actor) : Bool :=
  job.ownerId == actor.id || isFullAccessRole actor.user.role

structure ResolvedScript where
  id : ℕ
  script : Script
  path : Path

def resolveScript (host : Host) (db : Database)
    (job : CronJob) : Except ExecutionError ResolvedScript :=
  match job.scriptId with
  | none => .error .scriptNotLinked
  | some id =>
    match db.scripts.get? id with
    | none => .error .scriptUnavailable
    | some script =>
      if script.isDeleted || !script.isEnabled then .error .scriptUnavailable
      else do
        let path ← (canonicalizeScriptPath host script.path).mapError .path
        .ok ⟨id, script, path⟩

/-- The arguments of `_run`; the job is the row as it was read. -/
structure RunCall where
  jobId : ℕ
  job : CronJob
  trigger : Trigger
  actorId : Option ℕ
  actorUsername : Option Text
  ipAddress : Option Text

/-- A call of `_run` that has committed its row. -/
structure Running where
  call : RunCall
  scriptId : ℕ
  executionId : ℕ
  path : Path

def recordExecutionEvent (now : Instant) (call : RunCall) (action : AuditAction) (executionId : ℕ)
    (details : List (Text × Json)) (db : Database) : Database :=
  recordEvent now
    { action
      userId := call.actorId
      username := call.actorUsername
      resource := some "execution".toList
      resourceId := some (decimal executionId)
      ipAddress := call.ipAddress
      details } db

def startedExecution (now : Instant) (call : RunCall) (scriptId : ℕ) : Execution :=
  { cronJobId := some call.jobId
    scriptId := some scriptId
    trigger := call.trigger
    status := .running
    exitCode := none
    stdout := none
    stderr := none
    error := none
    durationMs := none
    username := call.actorUsername
    ipAddress := call.ipAddress
    startedAt := now
    finishedAt := none }

/-- `_run` up to its first commit. -/
def startRun (env : Environment) (call : RunCall)
    (db : Database) : Except ExecutionError (Running × Database) :=
  if !call.job.isActive then .error .jobInactive
  else do
    let resolved ← resolveScript env.host db call.job
    let (executionId, executions) :=
      db.executions.insert (startedExecution env.now call resolved.id)
    .ok (⟨call, resolved.id, executionId, resolved.path⟩,
      recordExecutionEvent env.now call .executionStarted executionId
        [("cron_job_id".toList, natural call.jobId), ("cron_job_name".toList, .text call.job.name),
          ("script_id".toList, natural resolved.id), ("script_name".toList, .text resolved.script.name),
          ("trigger".toList, .text call.trigger.name)]
        { db with executions })

def finalStatus (result : ExecutionResult) : Status × AuditAction :=
  if result.timedOut then (.timedOut, .executionTimedOut)
  else if result.exitCode = some 0 ∧ result.error = none then (.success, .executionSucceeded)
  else (.failed, .executionFailed)

def orNone (text : Text) : Option Text := if text = [] then none else some text

def finishedExecution (now : Instant) (result : ExecutionResult) (row : Execution) : Execution :=
  { row with
    status := (finalStatus result).1
    exitCode := result.exitCode
    stdout := orNone result.stdout
    stderr := orNone result.stderr
    error := result.error
    durationMs := some result.durationMs
    finishedAt := some now }

/-- `_run` after its first commit, which has expired the rows it holds: they are read again
for the last audit entry. -/
def finishRun (env : Environment) (run : Running) (db : Database) :
    Except ExecutionError Database := do
  let result ← (executeScript env.host run.path env.outputMaxChars env.durationMs env.process).mapError
    ExecutionError.ofExecute
  match db.executions.get? run.executionId, db.cronJobs.get? run.call.jobId,
    db.scripts.get? run.scriptId with
  | some row, some job, some script =>
    .ok (recordExecutionEvent env.now run.call (finalStatus result).2 run.executionId
      [("cron_job_id".toList, natural run.call.jobId), ("cron_job_name".toList, .text job.name),
        ("script_id".toList, natural run.scriptId), ("script_name".toList, .text script.name),
        ("status".toList, .text (finalStatus result).1.name),
        ("exit_code".toList, ofOption .number result.exitCode),
        ("duration_ms".toList, natural result.durationMs),
        ("trigger".toList, .text run.call.trigger.name)]
      { db with executions := db.executions.set run.executionId (finishedExecution env.now result row) })
  | _, _, _ => .error .unexpected

/-- `_run`; the database is what it leaves behind, also when it raises. -/
def run (env : Environment) (call : RunCall) (db : Database) : Database × Except ExecutionError ℕ :=
  match startRun env call db with
  | .error e => (db, .error e)
  | .ok (running, db) =>
    match finishRun env running db with
    | .error e => (db, .error e)
    | .ok db => (db, .ok running.executionId)

/-- `run_cron_job`, up to its call of `_run`. -/
def manualCall (db : Database) (call : Call) (jobId : ℕ) : Except ExecutionError RunCall :=
  match db.liveJob jobId with
  | none => .error .notFound
  | some job =>
    if canExecute job call.actor then
      .ok ⟨jobId, job, .manual, some call.actor.id, some call.actor.user.username, call.ipAddress⟩
    else .error .accessDenied

def runCronJob (env : Environment) (call : Call) (jobId : ℕ) (db : Database) :
    Database × Except ExecutionError ℕ :=
  match manualCall db call jobId with
  | .error e => (db, .error e)
  | .ok runCall => run env runCall db

def systemActorUsername : Text := "system".toList

def scheduledCall (jobId : ℕ) (job : CronJob) : RunCall :=
  ⟨jobId, job, .scheduled, none, some systemActorUsername, none⟩

/-- `run_scheduled_cron_job` in a session that has read the job before: its query finds the
row again, and the session answers with the object it holds. -/
def runScheduledCronJob (env : Environment) (jobId : ℕ) (job : CronJob) (db : Database) :
    Database × Except ExecutionError ℕ :=
  match db.liveJob jobId with
  | none => (db, .error .notFound)
  | some _ => run env (scheduledCall jobId job) db

def listExecutions (db : Database) (actor : Actor) (jobId : Option ℕ) (status : Option Text)
    (limit offset : ℤ) : List (ℕ × Execution) :=
  if isFullAccessRole actor.user.role then
    db.listExecutions (jobId.map fun jobId ↦ [jobId]) status limit offset
  else
    let owned := db.listOwnedJobIds actor.id
    match jobId with
    | some jobId =>
      if owned.contains jobId then db.listExecutions (some [jobId]) status limit offset else []
    | none => if owned.isEmpty then [] else db.listExecutions (some owned) status limit offset

/-- `get_execution`; a row without its job is not found either. -/
def getExecution (db : Database) (executionId : ℕ)
    (actor : Actor) : Except ExecutionError Execution :=
  match db.executions.get? executionId with
  | none => .error .notFound
  | some execution =>
    match execution.cronJobId.bind db.cronJobs.get? with
    | none => .error .notFound
    | some job => if canExecute job actor then .ok execution else .error .notFound

section

variable {env : Environment} {call : RunCall} {running : Running} {db db' : Database}

theorem resolveScript_ok {host : Host} {job : CronJob} {resolved : ResolvedScript}
    (h : resolveScript host db job = .ok resolved) :
    db.scripts.get? resolved.id = some resolved.script := by
  unfold resolveScript at h
  cases hid : job.scriptId with
  | none =>
    rw [hid] at h
    cases h
  | some id =>
    rw [hid] at h
    dsimp only at h
    split at h
    · cases h
    · rename_i script hscript
      split_ifs at h
      obtain ⟨path, -, h⟩ := bind_eq_ok.mp h
      cases h
      exact hscript

theorem resolveScript_available (host : Host) {job : CronJob} {id : ℕ} {script : Script}
    (hid : job.scriptId = some id)
    (hscript : db.scripts.get? id = some script) (hkept : script.isDeleted = false)
    (henabled : script.isEnabled) :
    resolveScript host db job = (do
      let path ← (canonicalizeScriptPath host script.path).mapError .path
      .ok ⟨id, script, path⟩) := by
  rw [resolveScript, hid]
  dsimp only
  rw [hscript]
  dsimp only
  rw [hkept, henabled]
  rfl

theorem resolveScript_unavailable {host : Host} {job : CronJob}
    (h : ¬∃ id script, job.scriptId = some id ∧ db.scripts.get? id = some script ∧
      script.isDeleted = false ∧ script.isEnabled) :
    resolveScript host db job = .error .scriptNotLinked ∨
      resolveScript host db job = .error .scriptUnavailable := by
  unfold resolveScript
  cases hid : job.scriptId with
  | none => exact .inl rfl
  | some id =>
    right
    dsimp only
    cases hscript : db.scripts.get? id with
    | none => rfl
    | some script =>
      dsimp only
      rw [if_pos]
      rw [Bool.or_eq_true, Bool.not_eq_true']
      by_contra hboth
      rw [not_or, Bool.not_eq_true, Bool.not_eq_false] at hboth
      exact h ⟨id, script, hid, hscript, hboth.1, hboth.2⟩

/-- A run starts exactly when the job was active at its read and its script can be resolved. -/
def Starts (env : Environment) (call : RunCall) (db : Database) : Prop :=
  call.job.isActive ∧ Succeeds (resolveScript env.host db call.job)

/-- The entry with which a run begins. -/
def startedEvent (call : RunCall) (resolved : ResolvedScript) (executionId : ℕ) : Event :=
  { action := .executionStarted
    userId := call.actorId
    username := call.actorUsername
    resource := some "execution".toList
    resourceId := some (decimal executionId)
    ipAddress := call.ipAddress
    details :=
      [("cron_job_id".toList, natural call.jobId), ("cron_job_name".toList, .text call.job.name),
        ("script_id".toList, natural resolved.id), ("script_name".toList, .text resolved.script.name),
        ("trigger".toList, .text call.trigger.name)] }

/-- The entry with which a run ends. -/
def finalEvent (running : Running) (result : ExecutionResult) (job : CronJob)
    (script : Script) : Event :=
  { action := (finalStatus result).2
    userId := running.call.actorId
    username := running.call.actorUsername
    resource := some "execution".toList
    resourceId := some (decimal running.executionId)
    ipAddress := running.call.ipAddress
    details :=
      [("cron_job_id".toList, natural running.call.jobId), ("cron_job_name".toList, .text job.name),
        ("script_id".toList, natural running.scriptId), ("script_name".toList, .text script.name),
        ("status".toList, .text (finalStatus result).1.name),
        ("exit_code".toList, ofOption .number result.exitCode),
        ("duration_ms".toList, natural result.durationMs),
        ("trigger".toList, .text running.call.trigger.name)] }

theorem startRun_eq_ok (h : startRun env call db = .ok (running, db')) :
    ∃ resolved, call.job.isActive ∧ resolveScript env.host db call.job = .ok resolved ∧
      running = ⟨call, resolved.id, db.executions.nextId, resolved.path⟩ ∧
      db' = recordEvent env.now (startedEvent call resolved db.executions.nextId)
        { db with executions := db.executions.set db.executions.nextId (startedExecution env.now call resolved.id) } := by
  unfold startRun at h
  split_ifs at h with hactive
  obtain ⟨resolved, hr, h⟩ := bind_eq_ok.mp h
  obtain ⟨rfl, rfl⟩ := Prod.mk.inj (Except.ok.inj h)
  exact ⟨resolved, by simpa using hactive, hr, rfl, rfl⟩

theorem finishRun_eq_ok (h : finishRun env running db = .ok db') :
    ∃ result row job script,
      executeScript env.host running.path env.outputMaxChars env.durationMs env.process =
        .ok result ∧
      db.executions.get? running.executionId = some row ∧
      db.cronJobs.get? running.call.jobId = some job ∧
        db.scripts.get? running.scriptId = some script ∧
      db' = recordEvent env.now (finalEvent running result job script)
        { db with
          executions :=
            db.executions.set running.executionId (finishedExecution env.now result row) } := by
  obtain ⟨result, hresult, h⟩ := bind_eq_ok.mp h
  have hexecute := hresult
  unfold Except.mapError at hexecute
  split at h
  · rename_i row job script hrow hjob hscript
    split at hexecute
    · cases hexecute
    · rename_i result' hok
      cases hexecute
      exact ⟨result, row, job, script, hok, hrow, hjob, hscript, (Except.ok.inj h).symm⟩
  · cases h

theorem manualCall_eq_ok {call : Call} {jobId : ℕ} {runCall : RunCall}
    (h : manualCall db call jobId = .ok runCall) :
    ∃ job, db.liveJob jobId = some job ∧ canExecute job call.actor ∧
      runCall = ⟨jobId, job, .manual, some call.actor.id, some call.actor.user.username,
        call.ipAddress⟩ := by
  unfold manualCall at h
  split at h
  · cases h
  · rename_i job hjob
    split_ifs at h with hexecute
    exact ⟨job, hjob, hexecute, (Except.ok.inj h).symm⟩

theorem startRun_ok (h : startRun env call db = .ok (running, db')) :
    Starts env call db ∧ running.call = call ∧ running.executionId = db.executions.nextId ∧
      (∃ script, db.scripts.get? running.scriptId = some script) ∧
      db'.executions = db.executions.set running.executionId
        (startedExecution env.now call running.scriptId) ∧
      db'.cronJobs = db.cronJobs ∧ db'.scripts = db.scripts := by
  obtain ⟨resolved, hactive, hr, rfl, rfl⟩ := startRun_eq_ok h
  exact ⟨⟨hactive, resolved, hr⟩, rfl, rfl, ⟨_, resolveScript_ok hr⟩, rfl, rfl, rfl⟩

theorem startRun_of_starts (h : Starts env call db) : Succeeds (startRun env call db) := by
  obtain ⟨hactive, resolved, hr⟩ := h
  rw [startRun, hactive, hr]
  exact ⟨_, rfl⟩

theorem finishedExecution_status (now : Instant) (result : ExecutionResult) (row : Execution) :
    (finishedExecution now result row).status ≠ .running := by
  unfold finishedExecution finalStatus
  dsimp only
  split_ifs <;> exact nofun

theorem finishRun_ok (h : finishRun env running db = .ok db') :
    ∃ row new, db.executions.get? running.executionId = some row ∧
      db'.executions = db.executions.set running.executionId new ∧ new.status ≠ .running ∧
      db'.cronJobs = db.cronJobs ∧ db'.scripts = db.scripts := by
  obtain ⟨result, row, job, script, -, hrow, -, -, rfl⟩ := finishRun_eq_ok h
  exact ⟨row, _, hrow, rfl, finishedExecution_status _ result row, rfl, rfl⟩

theorem finishRun_error {e : ExecutionError} (h : finishRun env running db = .error e) :
    (∃ error, e = .path error) ∨ e = .unexpected := by
  unfold finishRun at h
  cases hx : executeScript env.host running.path env.outputMaxChars env.durationMs env.process with
  | error failure =>
    rw [hx] at h
    cases h
    cases failure with
    | path error => exact .inl ⟨error, rfl⟩
    | unexpected => exact .inr rfl
  | ok result =>
    rw [hx] at h
    change (match db.executions.get? running.executionId, db.cronJobs.get? running.call.jobId,
      db.scripts.get? running.scriptId with
      | some row, some job, some script => _
      | _, _, _ => _) = Except.error e at h
    split at h <;> cases h
    exact .inr rfl

/-- The type of the file has no launcher, or the process call raises what the executor does
not catch. -/
def Raises (env : Environment) (path : Path) : Prop :=
  (∃ e, validateSupportedScriptType env.host path = .error e) ∨
    ∃ argv, resolveArgv env.host path = .ok argv ∧ env.process argv = .raised

/-- While the rows it names are there, a run fails to finish exactly when its script cannot
be launched. -/
theorem finishRun_error_iff {row : Execution} {job : CronJob} {script : Script}
    (hrow : db.executions.get? running.executionId = some row)
    (hjob : db.cronJobs.get? running.call.jobId = some job)
    (hscript : db.scripts.get? running.scriptId = some script) :
    (∃ e, finishRun env running db = .error e) ↔ Raises env running.path := by
  have hexecute : (∃ e, finishRun env running db = .error e) ↔
      ∃ e, executeScript env.host running.path env.outputMaxChars env.durationMs env.process =
        .error e := by
    unfold finishRun
    rw [hrow, hjob, hscript]
    cases executeScript env.host running.path env.outputMaxChars env.durationMs env.process with
    | error e => exact iff_of_true ⟨_, rfl⟩ ⟨e, rfl⟩
    | ok result => exact iff_of_false (fun ⟨e, h⟩ ↦ by cases h) (fun ⟨e, h⟩ ↦ by cases h)
  rw [hexecute, executeScript_error_iff]
  exact Iff.rfl

end

end CronPanel.Services.Executions
