import CronPanel.Access.Panel

namespace CronPanel.Access.Launches

open Library.Strings Library.Tables Library.Fallible Library.Run Core.Security Data.Records Data.Repositories
open Execution.Policy Execution.Executor Services.CronJobs Services.Executions Scheduler.Jobs
open Api.Errors Api.Executions Api.Requests Panel

variable (environ : Text → Option Text)

/-- What a call of `_run` gives to `subprocess.run`, when it comes to that. -/
def runLaunch (env : Environment) (call : RunCall) (db : Database) : Option Launch :=
  match startRun env call db with
  | .error _ => none
  | .ok (running, _) => (launch env.host environ running.path).toOption

/-- What a request gives to `subprocess.run`. -/
def requestLaunch (db : Database) : Request → Option Launch
  | .execute env sender jobId =>
    match executeCall sender jobId db with
    | .error _ => none
    | .ok call => runLaunch environ env call db
  | .fire env jobId =>
    match db.liveJob jobId with
    | none => none
    | some job =>
      if !job.isActive || db.hasRunningExecution jobId then none
      else runLaunch environ env (scheduledCall jobId job) db
  | _ => none

/-- The job that a request is to run, and what the run finds outside the database. -/
def runs : Request → Option (Environment × ℕ)
  | .execute env _ jobId => some (env, jobId)
  | .fire env jobId => some (env, jobId)
  | _ => none

/-- A launch starts the file that the script of a job resolves to, where the script and the job
are to run and the file is below the root of the allow-list. -/
def Allowed (db : Database) (r : Request) (l : Launch) : Prop :=
  ∃ env jobId job scriptId script path, runs r = some (env, jobId) ∧
    db.cronJobs.get? jobId = some job ∧ job.isDeleted = false ∧ job.isActive ∧
    job.scriptId = some scriptId ∧ db.scripts.get? scriptId = some script ∧
    script.isDeleted = false ∧ script.isEnabled ∧
    env.host.resolve (strip script.path) = .ok path ∧ env.host.isFile path ∧
      env.host.scriptsDir <+: path ∧
    (l.argv = [env.host.sysExecutable, path.text] ∨ l.argv = [path.text])

/-- A job without what its owner writes about it. -/
def untitled (job : CronJob) : CronJob :=
  { job with command := [], name := [], description := none }

/-- The jobs differ in their commands, names and descriptions at most. -/
structure SameButTexts (db db' : Database) : Prop where
  cronJobs : db'.cronJobs.map untitled = db.cronJobs.map untitled
  scripts : db'.scripts = db.scripts
  users : db'.users = db.users
  executions : db'.executions = db.executions

variable {environ}

section Allowed

variable {env : Environment} {call : RunCall} {db : Database} {l : Launch}

theorem canonicalizeScriptPath_ok {host : Host} {rawPath : Text} {path : Path}
    (h : canonicalizeScriptPath host rawPath = .ok path) :
    host.resolve (strip rawPath) = .ok path ∧ host.isFile path ∧ host.scriptsDir <+: path := by
  unfold canonicalizeScriptPath at h
  dsimp only at h
  split_ifs at h
  split at h
  · cases h
  · cases h
  · rename_i canonical hresolve
    split_ifs at h with hroot hfile
    cases h
    exact ⟨hresolve, hfile, hroot⟩

theorem resolveScript_linked {host : Host} {job : CronJob} {resolved : ResolvedScript}
    (h : resolveScript host db job = .ok resolved) :
    job.scriptId = some resolved.id ∧ db.scripts.get? resolved.id = some resolved.script ∧
      resolved.script.isDeleted = false ∧ resolved.script.isEnabled ∧
      canonicalizeScriptPath host resolved.script.path = .ok resolved.path := by
  unfold resolveScript at h
  split at h
  · cases h
  · rename_i id hid
    split at h
    · cases h
    · rename_i script hscript
      split_ifs at h with hoff
      obtain ⟨path, hpath, h⟩ := bind_eq_ok.mp h
      cases h
      rw [Bool.or_eq_true, not_or, Bool.not_eq_true, Bool.not_eq_true, Bool.not_eq_false'] at hoff
      exact ⟨hid, hscript, hoff.1, hoff.2, mapError_eq_ok.mp hpath⟩

theorem runLaunch_some (h : runLaunch environ env call db = some l) :
    ∃ resolved, call.job.isActive ∧
    resolveScript env.host db call.job = .ok resolved ∧
      launch env.host environ resolved.path = .ok l := by
  unfold runLaunch at h
  split at h
  · cases h
  · rename_i running db' hs
    obtain ⟨resolved, hactive, hresolved, rfl, -⟩ := startRun_eq_ok hs
    refine ⟨resolved, hactive, hresolved, ?_⟩
    dsimp only at h
    cases hl : launch env.host environ resolved.path with
    | error e =>
      rw [hl] at h
      cases h
    | ok l' =>
      rw [hl] at h
      exact congrArg Except.ok (Option.some.inj h)

theorem executeCall_eq_ok {sender : Sender} {jobId : ℕ}
    (h : executeCall sender jobId db = .ok call) :
    db.liveJob jobId = some call.job := by
  obtain ⟨sent, -, h⟩ := bind_eq_ok.mp h
  obtain ⟨job, hjob, -, rfl⟩ := manualCall_eq_ok (mapError_eq_ok.mp h)
  exact hjob

theorem allowed_of_call (call : RunCall) {r : Request} {jobId : ℕ} (hr : runs r = some (env, jobId))
    (hjob : db.liveJob jobId = some call.job) (h : runLaunch environ env call db = some l) :
    Allowed db r l := by
  obtain ⟨resolved, hactive, hresolved, hl⟩ := runLaunch_some h
  obtain ⟨hget, hdeleted⟩ := Database.liveJob_eq_some.mp hjob
  obtain ⟨hid, hscript, hkept, henabled, hpath⟩ := resolveScript_linked hresolved
  obtain ⟨hresolve, hfile, hroot⟩ := canonicalizeScriptPath_ok hpath
  obtain ⟨argv, hargv, hl⟩ := bind_eq_ok.mp hl
  cases hl
  exact ⟨env, jobId, call.job, resolved.id, resolved.script, resolved.path, hr, hget, hdeleted,
    hactive, hid, hscript, hkept, henabled, hresolve, hfile, hroot, resolveArgv_ok hargv⟩

theorem requestLaunch_allowed {r : Request} (h : requestLaunch environ db r = some l) :
    Allowed db r l := by
  cases r with
  | account r => cases h
  | edit op => cases h
  | execute env sender jobId =>
    dsimp only [requestLaunch] at h
    split at h
    · cases h
    · rename_i call hcall
      exact allowed_of_call call rfl (executeCall_eq_ok hcall) h
  | fire env jobId =>
    dsimp only [requestLaunch] at h
    split at h
    · cases h
    · rename_i job hjob
      split_ifs at h
      exact allowed_of_call (scheduledCall jobId job) rfl hjob h

end Allowed

section SameTexts

variable {env : Environment} {db db' : Database}

theorem runLaunch_eq (env : Environment) (call : RunCall) (db : Database) :
    runLaunch environ env call db =
    if call.job.isActive then
      (resolveScript env.host db call.job).toOption.bind fun resolved ↦
        (launch env.host environ resolved.path).toOption
    else none := by
  unfold runLaunch startRun
  cases hactive : call.job.isActive with
  | false => rfl
  | true => cases hresolved : resolveScript env.host db call.job <;> rfl

theorem runLaunch_congr (hscripts : db'.scripts = db.scripts) {call call' : RunCall}
    (h : untitled call'.job = untitled call.job) :
    runLaunch environ env call' db' = runLaunch environ env call db := by
  have hactive := congrArg CronJob.isActive h
  have hscript := congrArg CronJob.scriptId h
  dsimp only [untitled] at hactive hscript
  have hresolved : resolveScript env.host db' call'.job = resolveScript env.host db call.job := by
    unfold resolveScript
    rw [hscript, hscripts]
  rw [runLaunch_eq, runLaunch_eq, hactive, hresolved]

theorem SameButTexts.liveJob (h : SameButTexts db db') (id : ℕ) :
    (db.liveJob id = none ∧ db'.liveJob id = none) ∨
      ∃ job job', db.liveJob id = some job ∧ db'.liveJob id = some job' ∧
        untitled job' = untitled job := by
  have hsame := Table.get?_of_map_eq h.cronJobs id
  unfold Database.liveJob
  obtain ⟨hjob', hjob⟩ | ⟨job', job, hjob', hjob, huntitled⟩ := hsame
  · rw [hjob, hjob']
    exact .inl ⟨rfl, rfl⟩
  · have hdeleted := congrArg CronJob.isDeleted huntitled
    dsimp only [untitled] at hdeleted
    rw [hjob, hjob', Option.filter_some, Option.filter_some, hdeleted]
    split_ifs
    · exact .inr ⟨job, job', rfl, rfl, huntitled⟩
    · exact .inl ⟨rfl, rfl⟩

theorem SameButTexts.call (h : SameButTexts db db') (sender : Sender) (jobId : ℕ) :
    (∃ e, executeCall sender jobId db = .error e ∧ executeCall sender jobId db' = .error e) ∨
      ∃ call call', executeCall sender jobId db = .ok call ∧
        executeCall sender jobId db' = .ok call' ∧ untitled call'.job = untitled call.job := by
  have hpermission :
      requirePermission db' sender .executionsExecute =
      requirePermission db sender .executionsExecute := by
    unfold requirePermission loadUser
    rw [h.users]
  unfold executeCall manualCall
  rw [hpermission]
  cases requirePermission db sender .executionsExecute with
  | error e => exact .inl ⟨e, rfl, rfl⟩
  | ok call =>
    obtain ⟨hjob, hjob'⟩ | ⟨job, job', hjob, hjob', hsame⟩ := h.liveJob jobId
    · rw [hjob, hjob']
      exact .inl ⟨_, rfl, rfl⟩
    · have howner := congrArg CronJob.ownerId hsame
      dsimp only [untitled] at howner
      have hexecute : canExecute job' call.actor = canExecute job call.actor := by
        rw [canExecute, howner, canExecute]
      simp only [hjob, hjob', ok_bind, hexecute]
      cases canExecute job call.actor with
      | true => exact .inr ⟨_, _, rfl, rfl, hsame⟩
      | false => exact .inl ⟨_, rfl, rfl⟩

/-- What is launched does not depend on the command, the name or the description of a job. -/
theorem requestLaunch_congr (h : SameButTexts db db') (r : Request) :
    requestLaunch environ db' r = requestLaunch environ db r := by
  cases r with
  | account r => rfl
  | edit op => rfl
  | execute env sender jobId =>
    dsimp only [requestLaunch]
    obtain ⟨e, hcall, hcall'⟩ | ⟨call, call', hcall, hcall', hsame⟩ := h.call sender jobId
    · rw [hcall, hcall']
    · rw [hcall, hcall']
      exact runLaunch_congr h.scripts hsame
  | fire env jobId =>
    have hrunning : db'.hasRunningExecution jobId = db.hasRunningExecution jobId := by
      unfold Database.hasRunningExecution
      rw [h.executions]
    dsimp only [requestLaunch]
    obtain ⟨hjob, hjob'⟩ | ⟨job, job', hjob, hjob', hsame⟩ := h.liveJob jobId
    · rw [hjob, hjob']
    · have hactive := congrArg CronJob.isActive hsame
      dsimp only [untitled] at hactive
      simp only [hjob, hjob', hactive, hrunning]
      split_ifs
      · rfl
      · exact runLaunch_congr h.scripts hsame

end SameTexts

section Processes

variable {db : Database}

/-- The request with other answers of the processes it may start. -/
def withProcess (process : List Text → ProcessOutcome) : Request → Request
  | .execute env sender jobId => .execute { env with process } sender jobId
  | .fire env jobId => .fire { env with process } jobId
  | r => r

theorem run_congr (environ : Text → Option Text) (env : Environment)
    {process : List Text → ProcessOutcome} {call : RunCall}
    (h : ∀ l, runLaunch environ env call db = some l → process l.argv = env.process l.argv) :
    run { env with process } call db = run env call db := by
  have hstart : startRun { env with process } call db = startRun env call db := rfl
  unfold run
  rw [hstart]
  cases hs : startRun env call db with
  | error e => rfl
  | ok started =>
    obtain ⟨running, db₁⟩ := started
    have hexecute : executeScript env.host running.path env.outputMaxChars env.durationMs process =
        executeScript env.host running.path env.outputMaxChars env.durationMs env.process := by
      apply executeScript_congr
      intro argv hargv
      refine h ⟨argv, Path.text running.path.dropLast, minimalEnv env.host environ⟩ ?_
      rw [runLaunch, hs]
      dsimp only [launch]
      rw [hargv]
      rfl
    have hfinish : finishRun { env with process } running db₁ = finishRun env running db₁ := by
      unfold finishRun
      dsimp only
      rw [hexecute]
    dsimp only
    rw [hfinish]

variable {bcrypt : Bcrypt} {settings : Settings}

/-- A request starts no process but the one it launches. -/
theorem serve_congr {r : Request} {process process' : List Text → ProcessOutcome}
    (h : ∀ l, requestLaunch environ db r = some l → process' l.argv = process l.argv) :
    (withProcess process' r).serve bcrypt settings db =
      (withProcess process r).serve bcrypt settings db := by
  cases r with
  | account r => rfl
  | edit op => rfl
  | execute env sender jobId =>
    simp only [withProcess, Request.serve, executeCronJob, runCronJob]
    cases hcall : requirePermission db sender .executionsExecute with
    | error e => rfl
    | ok call =>
      dsimp only
      cases hmanual : manualCall db call jobId with
      | error e => rfl
      | ok runCall =>
        have hrun :
            run { env with process := process' } runCall db =
            run { env with process } runCall db := by
          apply run_congr environ { env with process }
          intro l hl
          apply h l
          simp only [requestLaunch, executeCall, hcall, ok_bind, hmanual]
          exact hl
        dsimp only
        rw [hrun]
  | fire env jobId =>
    simp only [withProcess, Request.serve, runScheduledJob]
    cases hjob : db.liveJob jobId with
    | none => rfl
    | some job =>
      dsimp only
      split_ifs with hpaused hrunning
      · rfl
      · rfl
      · have hrun : run { env with process := process' } (scheduledCall jobId job) db =
            run { env with process } (scheduledCall jobId job) db := by
          apply run_congr environ { env with process }
          intro l hl
          apply h l
          rw [requestLaunch, hjob]
          dsimp only
          rw [if_neg (by simp [hpaused, hrunning])]
          exact hl
        simp only [runScheduledCronJob, hjob, hrun]

end Processes

section Runs

variable (bcrypt : Bcrypt) (settings : Settings)

/-- Whatever has been edited before, a request launches an allowed file or nothing, and no
other process; and it launches the same when the jobs have other commands, names and
descriptions. -/
theorem only_allowed_scripts_launched (environ : Text → Option Text) (db : Database)
    (rs : List Request) :
    Guarded (step bcrypt settings) (fun db r ↦
      (∀ l, requestLaunch environ db r = some l → Allowed db r l) ∧
      (∀ db', SameButTexts db db' → requestLaunch environ db' r = requestLaunch environ db r) ∧
      ∀ process process', (∀ l, requestLaunch environ db r = some l →
        process' l.argv = process l.argv) →
        (withProcess process' r).serve bcrypt settings db =
          (withProcess process r).serve bcrypt settings db) db rs := by
  refine guarded_of_forall ?_ db rs
  intro db r
  refine ⟨?_, ?_, ?_⟩
  · intro l hl
    exact requestLaunch_allowed hl
  · intro db' h
    exact requestLaunch_congr h r
  · intro process process' h
    exact serve_congr h

end Runs

end CronPanel.Access.Launches
