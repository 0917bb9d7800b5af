import CronPanel.Library.Transactions
import CronPanel.Services.Users
import CronPanel.Services.Scripts
import CronPanel.Scheduler.Jobs

namespace CronPanel.Services.Transactions

open Library.Strings Library.JsonData Library.Tables Library.Fallible Library.Transactions
open Library.Transactions.Procedure Core.Permissions Core.PasswordPolicy Core.Security Data.Records
open Data.Repositories Schemas.Bodies Schemas.Accounts Execution.Policy Execution.Executor
open Audit CronJobs Scripts Executions Auth Users Scheduler.Jobs

variable {ε : Type}

/-- `add` of the repositories, with which `record_event` and `_record_history` end too: the new row
is committed with all that is flushed, or only flushed. -/
def add (row : Database → Database) (commit : Bool) : Procedure Database ε Unit := do
  write row
  if commit then Procedure.commit

section CronJobs

def createCronJob (call : Call) (body : CronJobCreate) : Procedure Database CronJobError ℕ := do
  let db ← current
  check (validateScriptReference db body.scriptId)
  let job ← check (applySchedule
    { name := body.name
      description := body.description
      command := body.command
      scheduleExpression := []
      minute := []
      hour := []
      dayOfMonth := []
      month := []
      dayOfWeek := []
      isActive := true
      isDeleted := false
      ownerId := call.actor.id
      scriptId := body.scriptId
      createdAt := call.now
      updatedAt := call.now } body.scheduleExpression)
  let id := db.cronJobs.nextId
  add (fun db ↦ { db with cronJobs := (db.cronJobs.insert job).2 }) false
  add (recordHistory call id .created []) false
  add (recordJobEvent call .cronJobCreated id
    [("name".toList, .text job.name),
      ("schedule_expression".toList, .text job.scheduleExpression)]) true
  return id

def updateCronJob (call : Call) (jobId : ℕ) (body : CronJobUpdate) :
    Procedure Database CronJobError Unit := do
  let db ← current
  let job ← check (getJobForWrite db jobId call.actor)
  check (validateScriptReference db body.scriptId)
  let (edited, changes) ← check (editCronJob body job)
  if changes = [] then return
  else
    write fun db ↦ { db with cronJobs := db.cronJobs.set jobId (touch call.now job edited) }
    add (recordHistory call jobId .updated changes) false
    add (recordJobEvent call .cronJobUpdated jobId
      [("name".toList, .text edited.name), ("changed_fields".toList, changedFields changes)]) false
    commit

def updateCronJobStatus (call : Call) (jobId : ℕ) (isActive : Bool) :
    Procedure Database CronJobError Unit := do
  let db ← current
  let job ← check (getJobForWrite db jobId call.actor)
  if job.isActive = isActive then return
  else
    write fun db ↦
      { db with cronJobs := db.cronJobs.set jobId { job with isActive, updatedAt := call.now } }
    add (recordHistory call jobId (if isActive then .enabled else .disabled) []) false
    add (recordJobEvent call (if isActive then .cronJobEnabled else .cronJobDisabled) jobId
      [("name".toList, .text job.name), ("is_active".toList, .bool isActive)]) false
    commit

def deleteCronJob (call : Call) (jobId : ℕ) : Procedure Database CronJobError Unit := do
  let db ← current
  let job ← check (getJobForWrite db jobId call.actor)
  let deleted := { job with isDeleted := true, isActive := false, updatedAt := call.now }
  write fun db ↦ { db with cronJobs := db.cronJobs.set jobId deleted }
  add (recordHistory call jobId .deleted []) false
  add (recordJobEvent call .cronJobDeleted jobId
    [("name".toList, .text job.name),
      ("schedule_expression".toList, .text job.scheduleExpression)]) false
  commit

end CronJobs

section Scripts

def createScript (call : Call) (host : Host) (body : ScriptCreate) :
    Procedure Database ScriptError ℕ := do
  let db ← current
  let validated ← check (canonicalize host body.path)
  if (db.scriptByName body.name).isSome then check (.error .nameConflict)
  else
    let script : Script :=
      { name := body.name
        description := body.description
        path := validated.text
        isEnabled := true
        isDeleted := false
        createdBy := some call.actor.id
        createdAt := call.now
        updatedAt := call.now }
    let id := db.scripts.nextId
    if pathTaken db id script.path then check (.error .integrity)
    else
      add (fun db ↦ { db with scripts := (db.scripts.insert script).2 }) false
      add (recordScriptEvent call .scriptCreated id
        [("name".toList, .text script.name), ("path".toList, .text script.path)]) true
      return id

def updateScript (call : Call) (host : Host) (scriptId : ℕ) (body : ScriptUpdate) :
    Procedure Database ScriptError Unit := do
  let db ← current
  let script ← check (getScript db scriptId)
  let (edited, changes) ← check (editScript db host scriptId body script)
  if changes = [] then return
  else if pathTaken db scriptId edited.path then check (.error .integrity)
  else
    let stored := if edited = script then script else { edited with updatedAt := call.now }
    write fun db ↦ { db with scripts := db.scripts.set scriptId stored }
    add (recordScriptEvent call .scriptUpdated scriptId
      [("name".toList, .text edited.name), ("changed_fields".toList, changedFields changes)]) false
    if script.isEnabled = edited.isEnabled then commit
    else
      add (recordScriptEvent call (if edited.isEnabled then .scriptEnabled else .scriptDisabled) scriptId
        [("name".toList, .text edited.name), ("is_enabled".toList, .bool edited.isEnabled)]) false
      commit

def deleteScript (call : Call) (scriptId : ℕ) : Procedure Database ScriptError Unit := do
  let db ← current
  let script ← check (getScript db scriptId)
  if db.isReferencedByActiveJob scriptId then check (.error .inUse)
  else
    let deleted := { script with isDeleted := true, updatedAt := call.now }
    write fun db ↦ { db with scripts := db.scripts.set scriptId deleted }
    add (recordScriptEvent call .scriptDeleted scriptId
      [("name".toList, .text script.name), ("path".toList, .text script.path)]) false
    commit

end Scripts

section Executions

/-- `_run` up to its first commit. -/
def startRun (env : Environment) (call : RunCall) : Procedure Database ExecutionError Running := do
  let db ← current
  if !call.job.isActive then check (.error .jobInactive)
  else
    let resolved ← check (resolveScript env.host db call.job)
    let id := db.executions.nextId
    add (fun db ↦
      { db with executions := (db.executions.insert (startedExecution env.now call resolved.id)).2 })
      false
    add (recordExecutionEvent env.now call .executionStarted id
      [("cron_job_id".toList, natural call.jobId), ("cron_job_name".toList, .text call.job.name),
        ("script_id".toList, natural resolved.id), ("script_name".toList, .text resolved.script.name),
        ("trigger".toList, .text call.trigger.name)]) true
    return ⟨call, resolved.id, id, resolved.path⟩

/-- `_run` after its first commit. -/
def finishRun (env : Environment) (run : Running) : Procedure Database ExecutionError Unit := do
  let result ← check ((executeScript env.host run.path env.outputMaxChars env.durationMs
    env.process).mapError ExecutionError.ofExecute)
  let db ← current
  match db.executions.get? run.executionId, db.cronJobs.get? run.call.jobId,
    db.scripts.get? run.scriptId with
  | some row, some job, some script =>
    write fun db ↦
      { db with executions := db.executions.set run.executionId (finishedExecution env.now result row) }
    add (recordExecutionEvent env.now run.call (finalStatus result).2 run.executionId
      [("cron_job_id".toList, natural run.call.jobId), ("cron_job_name".toList, .text job.name),
        ("script_id".toList, natural run.scriptId), ("script_name".toList, .text script.name),
        ("status".toList, .text (finalStatus result).1.name),
        ("exit_code".toList, ofOption .number result.exitCode),
        ("duration_ms".toList, natural result.durationMs),
        ("trigger".toList, .text run.call.trigger.name)]) false
    commit
  | _, _, _ => check (.error .unexpected)

def run (env : Environment) (call : RunCall) : Procedure Database ExecutionError ℕ := do
  let running ← startRun env call
  finishRun env running
  return running.executionId

def runCronJob (env : Environment) (call : Call) (jobId : ℕ) :
    Procedure Database ExecutionError ℕ := do
  let db ← current
  let runCall ← check (manualCall db call jobId)
  run env runCall

def runScheduledCronJob (env : Environment) (jobId : ℕ) (job : CronJob) :
    Procedure Database ExecutionError ℕ := do
  let db ← current
  match db.liveJob jobId with
  | none => check (.error .notFound)
  | some _ => run env (scheduledCall jobId job)

def runScheduledJob (env : Environment) (jobId : ℕ) : Procedure Database ε Unit := do
  let db ← current
  match db.liveJob jobId with
  | none => return
  | some job =>
    if !job.isActive then return
    else if db.hasRunningExecution jobId then add (recordSkip env.now jobId job alreadyRunning) true
    else
      let outcome ← (runScheduledCronJob env jobId job).attempt
      match outcome with
      | .ok _ => return
      | .error e =>
        match skipReason e with
        | none => return
        | some reason => add (recordSkip env.now jobId job reason) true

end Executions

section Accounts

variable (bcrypt : Bcrypt) (settings : Settings)

/-- `_revoke_all_tokens_for_user`; the user comes back as its row is now. -/
def revokeAllTokensForUser (now : Instant) (id : ℕ) (user : User) (commit : Bool) :
    Procedure Database ε User := do
  let revoked := { user with tokensInvalidBefore := some now, updatedAt := now }
  write fun db ↦ { db with users := db.users.set id revoked }
  add (recordEvent now
    { action := .tokenRevoked
      userId := some id
      username := some user.username
      resource := some "session".toList
      details := [("scope".toList, .text "all_sessions".toList)] }) commit
  return revoked

def authenticateUser (now : Instant) (ipAddress : Option Text) (username password : Text) :
    Procedure Database ε (Option (ℕ × User)) := do
  let db ← current
  match db.userByUsername username with
  | none =>
    add (recordLoginFailed now ipAddress none username "unknown_user".toList) true
    return none
  | some (id, user) =>
    if !verifyPassword bcrypt password user.hashedPassword then
      add (recordLoginFailed now ipAddress (some id) user.username "invalid_password".toList) true
      return none
    else if !user.isActive then
      add (recordLoginFailed now ipAddress (some id) user.username "inactive_user".toList) true
      return none
    else
      add (recordEvent now
        { action := .loginSuccess, userId := some id, username := some user.username,
          ipAddress }) true
      return some (id, user)

def changePassword (call : Call) (salt currentPassword newPassword : Text) :
    Procedure Database PasswordError Unit := do
  let user := call.actor.user
  if !verifyPassword bcrypt currentPassword user.hashedPassword then
    add (recordEvent call.now
      { action := .passwordChangeFailed
        userId := some call.actor.id
        username := some user.username
        ipAddress := call.ipAddress
        details := [("reason".toList, .text "wrong_current_password".toList)] }) true
    check (.error .wrongCurrent)
  else
    check ((enforcePasswordPolicy settings.passwordMinLength newPassword user.username).mapError .weak)
    let hashedPassword ← check ((hashPassword bcrypt salt newPassword).mapError .hashing)
    let _ ← revokeAllTokensForUser call.now call.actor.id { user with hashedPassword } true
    add (recordEvent call.now
      { action := .passwordChange
        userId := some call.actor.id
        username := some user.username
        ipAddress := call.ipAddress }) true

def createUser (call : Call) (salt : Text) (body : UserCreate Role) :
    Procedure Database UserError ℕ := do
  let db ← current
  if (db.userByUsername body.username).isSome then check (.error (.duplicateIdentity "username".toList))
  else if (db.userByEmail body.email).isSome then check (.error (.duplicateIdentity "email".toList))
  else
    let hashedPassword ← check (newPassword bcrypt settings salt body.password body.username)
    let role ← check (getRole db body.role)
    let id := db.users.nextId
    write fun db ↦
      { db with users := (db.users.insert
                  { username := body.username
                    email := body.email
                    hashedPassword
                    isActive := true
                    role
                    createdAt := call.now
                    updatedAt := call.now
                    lastLoginAt := none
                    tokensInvalidBefore := none }).2 }
    add (recordUserEvent call .userCreate id
      [("created_username".toList, .text body.username), ("role".toList, .text body.role.name)]) true
    return id

def setActive (call : Call) (targetId : ℕ) (isActive : Option Bool) (user : User) :
    Procedure Database UserError User := do
  match isActive with
  | none => return user
  | some isActive =>
    if isActive = user.isActive then return user
    else
      let db ← current
      check (protectLastAdmin db user)
      let user := { user with isActive, updatedAt := call.now }
      write fun db ↦ { db with users := db.users.set targetId user }
      add (recordUserEvent call (if isActive then .userActivate else .userDeactivate) targetId []) false
      if isActive then return user else revokeAllTokensForUser call.now targetId user false

def setRole (call : Call) (targetId : ℕ) (role : Option Role) (user : User) :
    Procedure Database UserError User := do
  match role with
  | none => return user
  | some role =>
    if role = user.role then return user
    else if call.actor.id = targetId then check (.error .cannotModifySelfRole)
    else
      let db ← current
      check (protectLastAdmin db user)
      let new ← check (getRole db role)
      let changed ← revokeAllTokensForUser call.now targetId { user with role := new } false
      add (recordUserEvent call .roleChange targetId
        [("old_role".toList, .text user.role.name), ("new_role".toList, .text role.name)]) false
      return changed

def setEmail (call : Call) (targetId : ℕ) (email : Option Text) (user : User) :
    Procedure Database UserError User := do
  match email with
  | none => return user
  | some email =>
    let db ← current
    if email = user.email then return user
    else if (db.userByEmail email).any fun existing ↦ existing.1 ≠ targetId then
      check (.error (.duplicateIdentity "email".toList))
    else
      let user := { user with email, updatedAt := call.now }
      write fun db ↦ { db with users := db.users.set targetId user }
      add (recordUserEvent call .userUpdate targetId [("changed_field".toList, .text "email".toList)]) false
      return user

def setPassword (call : Call) (salt : Text) (targetId : ℕ) (password : Option Text) (user : User) :
    Procedure Database UserError User := do
  match password with
  | none => return user
  | some password =>
    let hashedPassword ← check (newPassword bcrypt settings salt password user.username)
    let changed ← revokeAllTokensForUser call.now targetId { user with hashedPassword } false
    add (recordUserEvent call .passwordReset targetId []) false
    return changed

def updateUser (call : Call) (salt : Text) (targetId : ℕ) (body : UserUpdate Role) :
    Procedure Database UserError Unit := do
  let db ← current
  let user ← check (getUserOrRaise db targetId)
  let user ← setActive call targetId body.isActive user
  let user ← setRole call targetId body.role user
  let user ← setEmail call targetId body.email user
  let _ ← setPassword bcrypt settings call salt targetId body.password user
  commit

def deleteUser (call : Call) (targetId : ℕ) : Procedure Database UserError Unit := do
  let db ← current
  let user ← check (getUserOrRaise db targetId)
  check (protectLastAdmin db user)
  if call.actor.id = targetId then check (.error .selfDelete)
  else if db.cronJobs.rows.any fun r ↦ r.2.ownerId = targetId then check (.error .integrity)
  else
    write fun db ↦
      { db with
        users := db.users.erase targetId
        scripts := db.scripts.map fun script ↦
          if script.createdBy = some targetId then { script with createdBy := none, updatedAt := call.now }
          else script }
    add (recordUserEvent call .userDelete targetId [("deleted_username".toList, .text user.username)]) true

end Accounts

section Commits

theorem add_quiet (row : Database → Database) : (add row false : Procedure Database ε Unit).Quiet :=
  trivial

theorem add_commits (row : Database → Database) :
    Commits (Prod.mk ()) (add row true : Procedure Database ε Unit) fun db ↦ .ok (row db) where
  atomic := (write_quiet row).bind_atomic fun _ ↦ commit_atomic
  yields := fun _ ↦ .of_run rfl

theorem add_atomic (row : Database → Database) :
    (add row true : Procedure Database ε Unit).Atomic :=
  (add_commits row).atomic

variable {call : Call}

theorem createCronJob_commits (body : CronJobCreate) :
    Commits id (createCronJob call body) (Services.CronJobs.createCronJob call body) where
  atomic := by
    refine current_quiet.bind_atomic fun db ↦ (check_quiet _).bind_atomic fun _ ↦ ?_
    refine (check_quiet _).bind_atomic fun job ↦ (add_quiet _).bind_atomic fun _ ↦ ?_
    exact (add_quiet _).bind_atomic fun _ ↦ (add_atomic _).bind_pure fun _ ↦ db.cronJobs.nextId
  yields := by
    intro db
    exact yields_current (yields_check fun _ _ ↦ yields_check fun job _ ↦ .of_run rfl)

theorem updateCronJob_commits (jobId : ℕ) (body : CronJobUpdate) :
    Commits (Prod.mk ()) (updateCronJob call jobId body)
      (Services.CronJobs.updateCronJob call jobId body) where
  atomic := by
    refine current_quiet.bind_atomic fun db ↦ (check_quiet _).bind_atomic fun job ↦ ?_
    refine (check_quiet _).bind_atomic fun _ ↦ (check_quiet _).bind_atomic fun r ↦ ?_
    obtain ⟨edited, changes⟩ := r
    refine atomic_if (fun _ ↦ (pure_quiet ()).atomic) fun _ ↦ ?_
    refine (write_quiet _).bind_atomic fun _ ↦ (add_quiet _).bind_atomic fun _ ↦ ?_
    exact (add_quiet _).bind_atomic fun _ ↦ commit_atomic
  yields := by
    intro db
    refine yields_current (yields_check fun job _ ↦ yields_check fun _ _ ↦
      yields_check fun r _ ↦ ?_)
    obtain ⟨edited, changes⟩ := r
    exact yields_if (fun _ ↦ .of_run rfl) fun _ ↦ .of_run rfl

theorem updateCronJobStatus_commits (jobId : ℕ) (isActive : Bool) :
    Commits (Prod.mk ()) (updateCronJobStatus call jobId isActive)
      (Services.CronJobs.updateCronJobStatus call jobId isActive) where
  atomic := by
    refine current_quiet.bind_atomic fun db ↦ (check_quiet _).bind_atomic fun job ↦ ?_
    refine atomic_if (fun _ ↦ (pure_quiet ()).atomic) fun _ ↦ ?_
    refine (write_quiet _).bind_atomic fun _ ↦ (add_quiet _).bind_atomic fun _ ↦ ?_
    exact (add_quiet _).bind_atomic fun _ ↦ commit_atomic
  yields := by
    intro db
    refine yields_current (yields_check fun job _ ↦ ?_)
    exact yields_if (fun _ ↦ .of_run rfl) fun _ ↦ .of_run rfl

theorem deleteCronJob_commits (jobId : ℕ) :
    Commits (Prod.mk ()) (deleteCronJob call jobId)
      (Services.CronJobs.deleteCronJob call jobId) where
  atomic := by
    refine current_quiet.bind_atomic fun db ↦ (check_quiet _).bind_atomic fun job ↦ ?_
    refine (write_quiet _).bind_atomic fun _ ↦ (add_quiet _).bind_atomic fun _ ↦ ?_
    exact (add_quiet _).bind_atomic fun _ ↦ commit_atomic
  yields := by
    intro db
    exact yields_current (yields_check fun job _ ↦ .of_run rfl)

theorem createScript_commits (host : Host) (body : ScriptCreate) :
    Commits id (createScript call host body) (Services.Scripts.createScript call host body) where
  atomic := by
    refine current_quiet.bind_atomic fun db ↦ (check_quiet _).bind_atomic fun path ↦ ?_
    refine atomic_if (fun _ ↦ (check_quiet _).atomic) fun _ ↦ ?_
    refine atomic_if (fun _ ↦ (check_quiet _).atomic) fun _ ↦ ?_
    exact (add_quiet _).bind_atomic fun _ ↦ (add_atomic _).bind_pure fun _ ↦ db.scripts.nextId
  yields := by
    intro db
    refine yields_current (yields_check fun path _ ↦ yields_if (fun _ ↦ yields_error _) fun _ ↦ ?_)
    exact yields_if (fun _ ↦ yields_error _) fun _ ↦ .of_run rfl

theorem updateScript_commits (host : Host) (scriptId : ℕ) (body : ScriptUpdate) :
    Commits (Prod.mk ()) (updateScript call host scriptId body)
      (Services.Scripts.updateScript call host scriptId body) where
  atomic := by
    refine current_quiet.bind_atomic fun db ↦ (check_quiet _).bind_atomic fun script ↦ ?_
    refine (check_quiet _).bind_atomic fun r ↦ ?_
    obtain ⟨edited, changes⟩ := r
    refine atomic_if (fun _ ↦ (pure_quiet ()).atomic) fun _ ↦ ?_
    refine atomic_if (fun _ ↦ (check_quiet _).atomic) fun _ ↦ ?_
    refine (write_quiet _).bind_atomic fun _ ↦ (add_quiet _).bind_atomic fun _ ↦ ?_
    exact atomic_if (fun _ ↦ commit_atomic) fun _ ↦ (add_quiet _).bind_atomic fun _ ↦ commit_atomic
  yields := by
    intro db
    refine yields_current (yields_check fun script _ ↦ yields_check fun r _ ↦ ?_)
    obtain ⟨edited, changes⟩ := r
    refine yields_if (fun _ ↦ .of_run rfl) fun _ ↦ yields_if (fun _ ↦ yields_error _) fun _ ↦ ?_
    refine .of_run ?_
    unfold recordScriptUpdate
    by_cases henabled : script.isEnabled = edited.isEnabled
    · simp only [if_pos henabled]
      rfl
    · simp only [if_neg henabled]
      rfl

theorem deleteScript_commits (scriptId : ℕ) :
    Commits (Prod.mk ()) (deleteScript call scriptId)
      (Services.Scripts.deleteScript call scriptId) where
  atomic := by
    refine current_quiet.bind_atomic fun db ↦ (check_quiet _).bind_atomic fun script ↦ ?_
    refine atomic_if (fun _ ↦ (check_quiet _).atomic) fun _ ↦ ?_
    exact (write_quiet _).bind_atomic fun _ ↦ (add_quiet _).bind_atomic fun _ ↦ commit_atomic
  yields := by
    intro db
    refine yields_current (yields_check fun script _ ↦ ?_)
    exact yields_if (fun _ ↦ yields_error _) fun _ ↦ .of_run rfl

section Accounts

variable {bcrypt : Bcrypt} {settings : Settings} {s : Session Database}

theorem revokeAll_quiet (now : Instant) (userId : ℕ) (user : User) :
    (revokeAllTokensForUser now userId user false : Procedure Database ε User).Quiet := trivial

theorem createUser_commits (salt : Text) (body : UserCreate Role) :
    Commits id (createUser bcrypt settings call salt body)
      (Services.Users.createUser bcrypt settings call salt body) where
  atomic := by
    refine current_quiet.bind_atomic fun db ↦ ?_
    refine atomic_if (fun _ ↦ (check_quiet _).atomic) fun _ ↦ ?_
    refine atomic_if (fun _ ↦ (check_quiet _).atomic) fun _ ↦ ?_
    refine (check_quiet _).bind_atomic fun _ ↦ (check_quiet _).bind_atomic fun _ ↦ ?_
    exact (write_quiet _).bind_atomic fun _ ↦ (add_atomic _).bind_pure fun _ ↦ db.users.nextId
  yields := by
    intro db
    refine yields_current (yields_if (fun _ ↦ yields_error _) fun _ ↦ ?_)
    refine yields_if (fun _ ↦ yields_error _) fun _ ↦ ?_
    exact yields_check fun _ _ ↦ yields_check fun _ _ ↦ .of_run rfl

theorem deleteUser_commits (targetId : ℕ) :
    Commits (Prod.mk ()) (deleteUser call targetId) (Services.Users.deleteUser call targetId) where
  atomic := by
    refine current_quiet.bind_atomic fun db ↦ (check_quiet _).bind_atomic fun _ ↦ ?_
    refine (check_quiet _).bind_atomic fun _ ↦ ?_
    refine atomic_if (fun _ ↦ (check_quiet _).atomic) fun _ ↦ ?_
    refine atomic_if (fun _ ↦ (check_quiet _).atomic) fun _ ↦ ?_
    exact (write_quiet _).bind_atomic fun _ ↦ add_atomic _
  yields := by
    intro db
    refine yields_current (yields_check fun _ _ ↦ yields_check fun _ _ ↦ ?_)
    refine yields_if (fun _ ↦ yields_error _) fun _ ↦ ?_
    exact yields_if (fun _ ↦ yields_error _) fun _ ↦ .of_run rfl

theorem setActive_quiet (targetId : ℕ) (isActive : Option Bool) (user : User) :
    (setActive call targetId isActive user).Quiet := by
  cases isActive with
  | none => trivial
  | some isActive =>
    refine quiet_if (fun _ ↦ trivial) fun _ ↦ current_quiet.bind fun db ↦ ?_
    refine (check_quiet _).bind fun _ ↦ (write_quiet _).bind fun _ ↦ (add_quiet _).bind fun _ ↦ ?_
    exact quiet_if (fun _ ↦ trivial) fun _ ↦ revokeAll_quiet _ _ _

theorem setActive_yields (targetId : ℕ) (isActive : Option Bool) (user : User) :
    Yields (Session.mk s.stored) id (setActive call targetId isActive user) s
      (Services.Users.setActive call targetId isActive user s.working) := by
  cases isActive with
  | none => exact .of_run rfl
  | some isActive =>
    refine yields_if (fun _ ↦ .of_run rfl) fun _ ↦
      yields_current (yields_check fun _ _ ↦ .of_run ?_)
    cases isActive <;> rfl

theorem setRole_quiet (targetId : ℕ) (role : Option Role) (user : User) :
    (setRole call targetId role user).Quiet := by
  cases role with
  | none => trivial
  | some role =>
    refine quiet_if (fun _ ↦ trivial) fun _ ↦ quiet_if (fun _ ↦ trivial) fun _ ↦ ?_
    refine current_quiet.bind fun db ↦ (check_quiet _).bind fun _ ↦ (check_quiet _).bind fun _ ↦ ?_
    exact (revokeAll_quiet _ _ _).bind fun _ ↦ (add_quiet _).bind fun _ ↦ trivial

theorem setRole_yields (targetId : ℕ) (role : Option Role) (user : User) :
    Yields (Session.mk s.stored) id (setRole call targetId role user) s
      (Services.Users.setRole call targetId role user s.working) := by
  cases role with
  | none => exact .of_run rfl
  | some role =>
    refine yields_if (fun _ ↦ .of_run rfl) fun _ ↦ yields_if (fun _ ↦ yields_error _) fun _ ↦ ?_
    exact yields_current (yields_check fun _ _ ↦ yields_check fun _ _ ↦ .of_run rfl)

theorem setEmail_quiet (targetId : ℕ) (email : Option Text) (user : User) :
    (setEmail call targetId email user).Quiet := by
  cases email with
  | none => trivial
  | some email =>
    refine current_quiet.bind fun db ↦ quiet_if (fun _ ↦ trivial) fun _ ↦ ?_
    exact quiet_if (fun _ ↦ trivial) fun _ ↦ (write_quiet _).bind fun _ ↦ trivial

theorem setEmail_yields (targetId : ℕ) (email : Option Text) (user : User) :
    Yields (Session.mk s.stored) id (setEmail call targetId email user) s
      (Services.Users.setEmail call targetId email user s.working) := by
  cases email with
  | none => exact .of_run rfl
  | some email =>
    refine yields_current (yields_if (fun _ ↦ .of_run rfl) fun _ ↦ ?_)
    exact yields_if (fun _ ↦ yields_error _) fun _ ↦ .of_run rfl

theorem setPassword_quiet (salt : Text) (targetId : ℕ) (password : Option Text) (user : User) :
    (setPassword bcrypt settings call salt targetId password user).Quiet := by
  cases password with
  | none => trivial
  | some password =>
    exact (check_quiet _).bind fun _ ↦ (revokeAll_quiet _ _ _).bind fun _ ↦ trivial

theorem setPassword_yields (salt : Text) (targetId : ℕ) (password : Option Text) (user : User) :
    Yields (Session.mk s.stored) id (setPassword bcrypt settings call salt targetId password user) s
      (Services.Users.setPassword bcrypt settings call salt targetId password user s.working) := by
  cases password with
  | none => exact .of_run rfl
  | some password => exact yields_check fun _ _ ↦ .of_run rfl

theorem updateUser_commits (salt : Text) (targetId : ℕ) (body : UserUpdate Role) :
    Commits (Prod.mk ()) (updateUser bcrypt settings call salt targetId body)
      (Services.Users.updateUser bcrypt settings call salt targetId body) where
  atomic := by
    refine current_quiet.bind_atomic fun db ↦ (check_quiet _).bind_atomic fun user ↦ ?_
    refine (setActive_quiet _ _ _).bind_atomic fun _ ↦ (setRole_quiet _ _ _).bind_atomic fun _ ↦ ?_
    refine (setEmail_quiet _ _ _).bind_atomic fun _ ↦ ?_
    exact (setPassword_quiet _ _ _ _).bind_atomic fun _ ↦ commit_atomic
  yields := by
    intro db
    refine yields_current (yields_check fun user _ ↦ ?_)
    refine yields_bind (setActive_yields _ _ _) fun active _ ↦ ?_
    refine yields_bind (setRole_yields _ _ _) fun placed _ ↦ ?_
    refine yields_bind (setEmail_yields _ _ _) fun addressed _ ↦ ?_
    exact yields_bind (setPassword_yields _ _ _ _) fun final _ ↦ .of_run rfl

theorem authenticateUser_commits (now : Instant) (ipAddress : Option Text)
    (username password : Text) :
    Commits Prod.swap
      (authenticateUser bcrypt now ipAddress username password : Procedure Database ε _)
      fun db ↦ .ok (Auth.authenticateUser bcrypt now ipAddress username password db) where
  atomic := by
    refine current_quiet.bind_atomic fun db ↦ ?_
    cases db.userByUsername username with
    | none => exact (add_atomic _).bind_pure fun _ ↦ none
    | some found =>
      refine atomic_if (fun _ ↦ (add_atomic _).bind_pure fun _ ↦ none) fun _ ↦ ?_
      refine atomic_if (fun _ ↦ (add_atomic _).bind_pure fun _ ↦ none) fun _ ↦ ?_
      exact (add_atomic _).bind_pure fun _ ↦ some found
  yields := by
    intro db
    refine yields_current ?_
    unfold Auth.authenticateUser
    change Yields _ _ (match db.userByUsername username with
      | none => _
      | some (id, user) => _) _ _
    cases db.userByUsername username with
    | none => exact .of_run rfl
    | some found =>
      obtain ⟨id, user⟩ := found
      dsimp only
      split_ifs <;> exact .of_run rfl

/-- The new password is hashed once the current one and the policy are checked. -/
def Saves (bcrypt : Bcrypt) (settings : Settings) (call : Call)
    (salt currentPassword newPassword hashed : Text) : Prop :=
  verifyPassword bcrypt currentPassword call.actor.user.hashedPassword ∧
    enforcePasswordPolicy settings.passwordMinLength newPassword call.actor.user.username = .ok () ∧
    hashPassword bcrypt salt newPassword = .ok hashed

theorem revokeAll_commits (now : Instant) (userId : ℕ) (user : User) :
    Commits id (revokeAllTokensForUser now userId user true : Procedure Database ε User)
      fun db ↦ .ok (Auth.revokeAllTokensForUser now userId user db) where
  atomic := (write_quiet _).bind_atomic fun _ ↦ (add_atomic _).bind_pure fun _ ↦ _
  yields := fun _ ↦ .of_run rfl

theorem changePassword_run (salt currentPassword newPassword : Text) (db : Database) :
    (changePassword bcrypt settings call salt currentPassword newPassword).run (.opened db) =
      (.opened (Auth.changePassword bcrypt settings call salt currentPassword newPassword db).1,
        (Auth.changePassword bcrypt settings call salt currentPassword newPassword db).2) := by
  unfold changePassword Auth.changePassword
  dsimp only
  split_ifs
  · rfl
  · cases enforcePasswordPolicy settings.passwordMinLength newPassword call.actor.user.username with
    | error violations => rfl
    | ok u => cases hashPassword bcrypt salt newPassword <;> rfl

theorem changePassword_saves {salt currentPassword newPassword hashed : Text}
    (h : Saves bcrypt settings call salt currentPassword newPassword hashed) :
    changePassword bcrypt settings call salt currentPassword newPassword = (do
      let _ ← revokeAllTokensForUser call.now call.actor.id
        { call.actor.user with hashedPassword := hashed } true
      add (recordEvent call.now
        { action := .passwordChange
          userId := some call.actor.id
          username := some call.actor.user.username
          ipAddress := call.ipAddress }) true) := by
  obtain ⟨hverify, hpolicy, hhash⟩ := h
  unfold changePassword
  dsimp only
  rw [hverify, hpolicy, hhash]
  rfl

/-- The store can also be found as the first commit leaves it, when the password is saved. -/
theorem changePassword_durable {salt currentPassword newPassword : Text} {db t : Database}
    (h : (changePassword bcrypt settings call salt currentPassword newPassword).Durable
      (.opened db) t) :
    t = db ∨ t = (Auth.changePassword bcrypt settings call salt currentPassword newPassword db).1 ∨
      ∃ hashed, Saves bcrypt settings call salt currentPassword newPassword hashed ∧
        t = (Auth.revokeAllTokensForUser call.now call.actor.id
          { call.actor.user with hashedPassword := hashed } db).2 := by
  cases hverify : verifyPassword bcrypt currentPassword call.actor.user.hashedPassword with
  | false =>
    unfold changePassword at h
    unfold Auth.changePassword
    dsimp only at h ⊢
    rw [hverify] at h ⊢
    rcases (add_commits _).durable_then h with h | ⟨r, hr, h⟩
    · exact .inl h
    · cases hr
      exact .inr (.inl (durable_done.mp h))
  | true =>
    cases hpolicy : enforcePasswordPolicy settings.passwordMinLength newPassword
        call.actor.user.username with
    | error violations =>
      left
      unfold changePassword at h
      dsimp only at h
      rw [hverify, hpolicy] at h
      exact durable_done.mp h
    | ok u =>
      cases hhash : hashPassword bcrypt salt newPassword with
      | error message =>
        left
        unfold changePassword at h
        dsimp only at h
        rw [hverify, hpolicy, hhash] at h
        exact durable_done.mp h
      | ok hashed =>
        have hsaves : Saves bcrypt settings call salt currentPassword newPassword hashed :=
          ⟨hverify, hpolicy, hhash⟩
        rw [changePassword_saves hsaves] at h
        rcases (revokeAll_commits _ _ _).durable_then h with h | ⟨r, hr, h⟩
        · exact .inl h
        · cases hr
          rcases (add_commits _).durable h with h | ⟨u, hu, h⟩
          · exact .inr (.inr ⟨hashed, hsaves, h⟩)
          · cases hu
            right
            left
            rw [h]
            unfold Auth.changePassword
            dsimp only
            rw [hverify, hpolicy]
            dsimp only
            rw [hhash]
            rfl

end Accounts

section Executions

variable {db t : Database}

theorem startRun_run (env : Environment) (call : RunCall) (db : Database) :
    (startRun env call).run (.opened db) = match Executions.startRun env call db with
      | .ok (running, db') => (.opened db', .ok running)
      | .error e => (.opened db, .error e) := by
  unfold startRun Executions.startRun
  rw [run_current]
  split_ifs
  · rfl
  · cases resolveScript env.host db call.job <;> rfl

theorem finishRun_run (env : Environment) (running : Running) (db : Database) :
    (finishRun env running).run (.opened db) = match Executions.finishRun env running db with
      | .ok db' => (.opened db', .ok ())
      | .error e => (.opened db, .error e) := by
  unfold finishRun Executions.finishRun
  cases executeScript env.host running.path env.outputMaxChars env.durationMs env.process with
  | error e => rfl
  | ok result =>
    change (match db.executions.get? running.executionId, db.cronJobs.get? running.call.jobId,
      db.scripts.get? running.scriptId with
      | some row, some job, some script => _
      | _, _, _ => _ : Procedure Database ExecutionError Unit).run _ =
        match (match db.executions.get? running.executionId, db.cronJobs.get? running.call.jobId,
          db.scripts.get? running.scriptId with
          | some row, some job, some script => _
          | _, _, _ => _ : Except ExecutionError Database) with
        | .ok db' => _
        | .error e => _
    cases db.executions.get? running.executionId with
    | none => rfl
    | some row =>
      cases db.cronJobs.get? running.call.jobId with
      | none => rfl
      | some job => cases db.scripts.get? running.scriptId <;> rfl

theorem startRun_commits (env : Environment) (call : RunCall) :
    Commits id (startRun env call) (Executions.startRun env call) := by
  refine .of_run ?_ fun db ↦ ?_
  · refine current_quiet.bind_atomic fun db ↦ atomic_if (fun _ ↦ (check_quiet _).atomic) fun _ ↦ ?_
    refine (check_quiet _).bind_atomic fun resolved ↦ (add_quiet _).bind_atomic fun _ ↦ ?_
    exact (add_atomic _).bind_pure fun _ ↦ _
  · rw [startRun_run]
    cases Executions.startRun env call db <;> rfl

theorem finishRun_commits (env : Environment) (running : Running) :
    Commits (Prod.mk ()) (finishRun env running) (Executions.finishRun env running) := by
  refine .of_run ?_ fun db ↦ ?_
  · refine (check_quiet _).bind_atomic fun result ↦ current_quiet.bind_atomic fun db ↦ ?_
    split
    · exact (write_quiet _).bind_atomic fun _ ↦ (add_quiet _).bind_atomic fun _ ↦ commit_atomic
    · exact (check_quiet _).atomic
  · rw [finishRun_run]
    cases Executions.finishRun env running db <;> rfl

theorem run_run (env : Environment) (call : RunCall) (db : Database) :
    (Transactions.run env call).run (.opened db) =
      (.opened (Executions.run env call db).1, (Executions.run env call db).2) := by
  unfold Transactions.run Executions.run
  rw [run_bind, startRun_run]
  cases Executions.startRun env call db with
  | error e => rfl
  | ok started =>
    obtain ⟨running, db₁⟩ := started
    dsimp only
    rw [run_bind, finishRun_run]
    cases Executions.finishRun env running db₁ <;> rfl

/-- The store is found as it was, as a run has begun with it, or as the run leaves it. -/
theorem run_durable {env : Environment} {call : RunCall}
    (h : (Transactions.run env call).Durable (.opened db) t) :
    t = db ∨ (∃ running, Executions.startRun env call db = .ok (running, t)) ∨
      t = (Executions.run env call db).1 := by
  rcases (startRun_commits env call).durable_then h with h | ⟨⟨running, db₁⟩, hs, h⟩
  · exact .inl h
  · rcases ((finishRun_commits env running).bind_pure fun _ ↦ running.executionId).durable h with
      h | ⟨db₂, hf, h⟩
    · exact .inr (.inl ⟨running, h ▸ hs⟩)
    · right
      right
      rw [h]
      change Executions.finishRun env running db₁ = .ok db₂ at hf
      unfold Executions.run
      rw [hs]
      dsimp only
      rw [hf]

theorem runCronJob_run (env : Environment) (actor : Call) (jobId : ℕ) (db : Database) :
    (runCronJob env actor jobId).run (.opened db) =
      (.opened (Executions.runCronJob env actor jobId db).1,
        (Executions.runCronJob env actor jobId db).2) := by
  unfold runCronJob Executions.runCronJob
  rw [run_current]
  cases manualCall db actor jobId with
  | error e => rfl
  | ok call => exact run_run env call db

theorem runCronJob_durable {env : Environment} {actor : Call} {jobId : ℕ}
    (h : (runCronJob env actor jobId).Durable (.opened db) t) :
    t = db ∨ (∃ call running, Executions.startRun env call db = .ok (running, t)) ∨
      t = (Executions.runCronJob env actor jobId db).1 := by
  unfold Executions.runCronJob
  unfold runCronJob at h
  rw [durable_current] at h
  cases hcall : manualCall db actor jobId with
  | error e =>
    rw [hcall] at h
    exact .inl (durable_done.mp h)
  | ok call =>
    rw [hcall] at h
    exact (run_durable h).imp_right (Or.imp_left fun hs ↦ ⟨call, hs⟩)

theorem runScheduledCronJob_run (env : Environment) (jobId : ℕ) (job : CronJob) (db : Database) :
    (runScheduledCronJob env jobId job).run (.opened db) =
      (.opened (Executions.runScheduledCronJob env jobId job db).1,
        (Executions.runScheduledCronJob env jobId job db).2) := by
  unfold runScheduledCronJob Executions.runScheduledCronJob
  rw [run_current]
  cases db.liveJob jobId with
  | none => rfl
  | some found => exact run_run env (scheduledCall jobId job) db

theorem runScheduledJob_run (env : Environment) (jobId : ℕ) (db : Database) :
    (runScheduledJob env jobId : Procedure Database ε Unit).run (.opened db) =
      (.opened (Scheduler.Jobs.runScheduledJob env jobId db), .ok ()) := by
  unfold runScheduledJob Scheduler.Jobs.runScheduledJob
  rw [run_current]
  cases db.liveJob jobId with
  | none => rfl
  | some job =>
    dsimp only
    split_ifs
    · rfl
    · rfl
    · rw [run_bind, run_attempt, runScheduledCronJob_run]
      cases Executions.runScheduledCronJob env jobId job db with | mk db' outcome =>
      cases outcome with
      | ok executionId => rfl
      | error e =>
        dsimp only
        unfold recordFailure
        cases skipReason e <;> rfl

theorem runScheduledCronJob_durable {env : Environment} {jobId : ℕ} {job : CronJob}
    (h : (runScheduledCronJob env jobId job).Durable (.opened db) t) :
    t = db ∨ (∃ call running, Executions.startRun env call db = .ok (running, t)) ∨
      t = (Executions.runScheduledCronJob env jobId job db).1 := by
  unfold Executions.runScheduledCronJob
  unfold runScheduledCronJob at h
  rw [durable_current] at h
  cases hjob : db.liveJob jobId with
  | none =>
    rw [hjob] at h
    exact .inl (durable_done.mp h)
  | some found =>
    rw [hjob] at h
    exact (run_durable h).imp_right (Or.imp_left fun hs ↦ ⟨_, hs⟩)

/-- A fire that is skipped after its run has been turned away has the run's states too. -/
theorem runScheduledJob_durable {env : Environment} {jobId : ℕ}
    (h : (runScheduledJob env jobId : Procedure Database ε Unit).Durable (.opened db) t) :
    t = db ∨ (∃ call running, Executions.startRun env call db = .ok (running, t)) ∨
      (∃ job, t = (Executions.runScheduledCronJob env jobId job db).1) ∨
      t = Scheduler.Jobs.runScheduledJob env jobId db := by
  unfold Scheduler.Jobs.runScheduledJob
  unfold runScheduledJob at h
  rw [durable_current] at h
  cases hjob : db.liveJob jobId with
  | none =>
    rw [hjob] at h
    exact .inl (durable_done.mp h)
  | some job =>
    rw [hjob] at h
    dsimp only at h ⊢
    split_ifs at h ⊢ with hactive hrunning
    · exact .inl (durable_done.mp h)
    · rcases (add_commits _).durable h with h | ⟨r, hr, h⟩
      · exact .inl h
      · cases hr
        exact .inr (.inr (.inr h))
    · rcases durable_bind.mp h with h | ⟨outcome, houtcome, h⟩
      · rcases runScheduledCronJob_durable (durable_attempt.mp h) with h | hs | h
        · exact .inl h
        · exact .inr (.inl hs)
        · exact .inr (.inr (.inl ⟨job, h⟩))
      · rw [run_attempt, runScheduledCronJob_run] at houtcome h
        obtain rfl := Except.ok.inj houtcome
        cases hrun : Executions.runScheduledCronJob env jobId job db with | mk db' outcome =>
        rw [hrun] at h
        cases outcome with
        | ok executionId => exact .inr (.inr (.inr (durable_done.mp h)))
        | error e =>
          dsimp only at h ⊢
          unfold recordFailure
          cases hskip : skipReason e with
          | none =>
            rw [hskip] at h
            exact .inr (.inr (.inr (durable_done.mp h)))
          | some reason =>
            rw [hskip] at h
            rcases (add_commits _).durable h with h | ⟨r, hr, h⟩
            · exact .inr (.inr (.inl ⟨job, by rw [hrun]; exact h⟩))
            · cases hr
              exact .inr (.inr (.inr h))

end Executions

end Commits

end CronPanel.Services.Transactions
