import CronPanel.Access.Panel
import CronPanel.Api.Frames

namespace CronPanel.Access.Writes

open Library.Strings Library.Tables Library.Fallible Library.Run
open Core.Permissions Core.Security Data.Records Data.Repositories Schemas.Bodies Execution.Policy Services.Audit
open Services.CronJobs Services.Scripts Services.Executions Scheduler.Jobs
open Api.Errors Api.Operations Api.Executions Api.Frames Api.Requests Panel

/-- The sender, the permission of the route and the job of a request about a job that exists. -/
def target : Request → Option (ℕ × Permission × ℕ)
  | .edit (.updateCronJob sender id _) => some (sender.userId, .cronJobsUpdate, id)
  | .edit (.updateCronJobStatus sender id _) => some (sender.userId, .cronJobsEnable, id)
  | .edit (.deleteCronJob sender id) => some (sender.userId, .cronJobsDelete, id)
  | .execute _ sender id => some (sender.userId, .executionsExecute, id)
  | _ => none

def Entitled (db : Database) (r : Request) (id : ℕ) : Prop :=
  ∃ userId permission user job, target r = some (userId, permission, id) ∧
    db.users.get? userId = some user ∧ user.isActive ∧ hasPermission user.role permission ∧
    db.cronJobs.get? id = some job ∧ (job.ownerId = userId ∨ isFullAccessRole user.role)

/-- Who may have made a step is decided by the database before it. -/
structure Authorized (db : Database) (r : Request) (db' : Database) : Prop where
  cronJobs : ∀ id job, db.cronJobs.get? id = some job → db'.cronJobs.get? id ≠ some job →
    Entitled db r id
  cronJobHistory : ∀ k entry, db'.cronJobHistory.get? k = some entry →
    db.cronJobHistory.get? k ≠ some entry →
    (db.cronJobs.get? entry.cronJobId).isSome → Entitled db r entry.cronJobId
  executions : ∀ k execution, db'.executions.get? k = some execution → db.executions.get? k = none →
    execution.trigger = .manual → ∃ id, execution.cronJobId = some id ∧ Entitled db r id
  owner : ∀ id job, db.cronJobs.get? id = some job →
    ∃ job', db'.cronJobs.get? id = some job' ∧ job'.ownerId = job.ownerId

/-- The answers with which a request is turned away: 401, 403 and 404. -/
def isDenial : HttpError → Bool
  | .detail status _ _ => status == 401 || status == 403 || status == 404
  | _ => false

structure SameJobs (db db' : Database) : Prop where
  cronJobs : db'.cronJobs = db.cronJobs
  cronJobHistory : db'.cronJobHistory = db.cronJobHistory
  executions : db'.executions = db.executions

variable {db db' : Database} {r : Request}

theorem SameJobs.refl (db : Database) : SameJobs db db := ⟨rfl, rfl, rfl⟩

theorem SameJobs.authorized (h : SameJobs db db') : Authorized db r db' := by
  obtain ⟨hjobs, hhistory, hexecutions⟩ := h
  refine ⟨?_, ?_, ?_, ?_⟩
  · intro id job hget hne
    exact absurd (hjobs ▸ hget) hne
  · intro k entry hget hne
    exact absurd (hhistory ▸ hget) hne
  · intro k execution hget hnone
    rw [hexecutions, hnone] at hget
    cases hget
  · intro id job hget
    exact ⟨job, hjobs ▸ hget, rfl⟩

/-- What the operations on a job write: its row, and one row of its history. -/
structure JobWrite (call : Call) (id : ℕ) (db db' : Database) : Prop where
  cronJobs : ∃ job job', db.cronJobs.get? id = some job ∧ canManage job call.actor ∧
    db'.cronJobs = db.cronJobs.set id job' ∧ job'.ownerId = job.ownerId
  cronJobHistory : ∀ k entry, db'.cronJobHistory.get? k = some entry →
    db.cronJobHistory.get? k ≠ some entry →
    entry.cronJobId = id
  executions : db'.executions = db.executions

theorem insert_new {α : Type} {t : Table ℕ α} {a b : α} {k : ℕ} (h : (t.insert a).2.get? k = some b)
    (hne : t.get? k ≠ some b) : b = a := by
  rw [Table.insert, Table.get?_set] at h
  split_ifs at h
  · exact (Option.some.inj h).symm
  · exact absurd h hne

section Services

variable {call : Call} {id : ℕ}

theorem canManage_iff {job : CronJob} {actor : Actor} :
    canManage job actor ↔ job.ownerId = actor.id ∨ isFullAccessRole actor.user.role := by
  rw [canManage, Bool.or_eq_true, beq_iff_eq]

theorem JobWrite.unchanged {job : CronJob} (hjob : db.liveJob id = some job)
    (hmanage : canManage job call.actor) :
    JobWrite call id db db := by
  have hget := (Database.liveJob_eq_some.mp hjob).1
  exact ⟨⟨job, job, hget, hmanage, (Table.set_get? hget).symm, rfl⟩,
    fun _ _ h hne ↦ absurd h hne, rfl⟩

theorem JobWrite.recorded {job job' : CronJob} {action : HistoryAction} {changes : List Change}
    {event : AuditAction} {details : List (Text × Library.JsonData.Json)}
    (hjob : db.liveJob id = some job)
    (hmanage : canManage job call.actor) (howner : job'.ownerId = job.ownerId) :
    JobWrite call id db (recordJobEvent call event id details
      (recordHistory call id action changes { db with cronJobs := db.cronJobs.set id job' })) where
  cronJobs := ⟨job, job', (Database.liveJob_eq_some.mp hjob).1, hmanage, rfl, howner⟩
  cronJobHistory k entry h hne := by rw [insert_new h hne]
  executions := rfl

theorem applySchedule_kept {job job' : CronJob} {expression : Text}
    (h : applySchedule job expression = .ok job') :
    job'.ownerId = job.ownerId ∧ job'.isDeleted = job.isDeleted ∧ job'.isActive = job.isActive := by
  unfold applySchedule at h
  split at h <;> cases h
  exact ⟨rfl, rfl, rfl⟩

/-- What no update of a job changes. -/
theorem editCronJob_kept {body : CronJobUpdate} {job edited : CronJob} {changes : List Change}
    (h : editCronJob body job = .ok (edited, changes)) :
    edited.ownerId = job.ownerId ∧ edited.isDeleted = job.isDeleted ∧
      edited.isActive = job.isActive := by
  obtain ⟨⟨edited', onSchedule⟩, hs, h⟩ := bind_eq_ok.mp h
  cases h
  unfold setSchedule at hs
  split at hs
  · cases hs
    exact ⟨rfl, rfl, rfl⟩
  · split_ifs at hs
    · cases hs
      exact ⟨rfl, rfl, rfl⟩
    · obtain ⟨changed, hc, hs⟩ := bind_eq_ok.mp hs
      cases hs
      have hkept := applySchedule_kept hc
      exact hkept

theorem updateCronJob_write {body : CronJobUpdate}
    (h : Services.CronJobs.updateCronJob call id body db = .ok db') : JobWrite call id db db' := by
  obtain ⟨job, hjob, h⟩ := bind_eq_ok.mp h
  obtain ⟨hlive, hmanage⟩ := getJobForWrite_ok hjob
  obtain ⟨⟨⟩, -, h⟩ := bind_eq_ok.mp h
  obtain ⟨⟨edited, changes⟩, hedit, h⟩ := bind_eq_ok.mp h
  obtain ⟨howner, -, -⟩ := editCronJob_kept hedit
  dsimp only at h
  split_ifs at h
  · cases h
    exact .unchanged hlive hmanage
  · cases h
    refine .recorded hlive hmanage ?_
    unfold touch
    split_ifs
    · rfl
    · exact howner

theorem updateCronJobStatus_write {isActive : Bool}
    (h : Services.CronJobs.updateCronJobStatus call id isActive db = .ok db') :
    JobWrite call id db db' := by
  obtain ⟨job, hjob, h⟩ := bind_eq_ok.mp h
  obtain ⟨hlive, hmanage⟩ := getJobForWrite_ok hjob
  split_ifs at h
  · cases h
    exact .unchanged hlive hmanage
  all_goals
    cases h
    exact .recorded hlive hmanage rfl

theorem deleteCronJob_write (h : Services.CronJobs.deleteCronJob call id db = .ok db') :
    JobWrite call id db db' := by
  obtain ⟨job, hjob, h⟩ := bind_eq_ok.mp h
  obtain ⟨hlive, hmanage⟩ := getJobForWrite_ok hjob
  cases h
  exact .recorded hlive hmanage rfl

theorem createCronJob_authorized {body : CronJobCreate}
    (h : Services.CronJobs.createCronJob call body db = .ok (id, db')) : Authorized db r db' := by
  obtain ⟨⟨⟩, -, h⟩ := bind_eq_ok.mp h
  obtain ⟨job, -, h⟩ := bind_eq_ok.mp h
  cases h
  have hkept :
      ∀ id job', db.cronJobs.get? id = some job' →
      (db.cronJobs.insert job).2.get? id = some job' := by
    intro id job' hget
    rw [Table.insert, Table.get?_set_ne _ _ (Table.lt_nextId hget).ne, hget]
  refine ⟨?_, ?_, ?_, ?_⟩
  · intro id job' hget hne
    exact absurd (hkept id job' hget) hne
  · intro k entry hget hne hsome
    rw [insert_new hget hne, Table.get?_nextId] at hsome
    cases hsome
  · intro k execution hget hnone
    have hsome : db.executions.get? k = some execution := hget
    rw [hnone] at hsome
    cases hsome
  · intro id job' hget
    exact ⟨job', hkept id job' hget, rfl⟩

theorem createScript_same {host : Host} {body : ScriptCreate}
    (h : Services.Scripts.createScript call host body db = .ok (id, db')) : SameJobs db db' := by
  obtain ⟨validated, -, h⟩ := bind_eq_ok.mp h
  dsimp only at h
  split_ifs at h
  cases h
  exact ⟨rfl, rfl, rfl⟩

theorem updateScript_same {host : Host} {body : ScriptUpdate}
    (h : Services.Scripts.updateScript call host id body db = .ok db') : SameJobs db db' := by
  obtain ⟨script, -, h⟩ := bind_eq_ok.mp h
  obtain ⟨⟨edited, changes⟩, -, h⟩ := bind_eq_ok.mp h
  dsimp only at h
  split_ifs at h
  · cases h
    exact .refl db
  all_goals
    cases h
    unfold recordScriptUpdate
    split_ifs <;> exact ⟨rfl, rfl, rfl⟩

theorem deleteScript_same (h : Services.Scripts.deleteScript call id db = .ok db') :
    SameJobs db db' := by
  obtain ⟨script, -, h⟩ := bind_eq_ok.mp h
  split_ifs at h
  cases h
  exact ⟨rfl, rfl, rfl⟩

theorem JobWrite.authorized {sender : Sender} {permission : Permission}
    (hcall : requirePermission db sender permission = .ok call)
    (htarget : target r = some (sender.userId, permission, id)) (h : JobWrite call id db db') :
    Authorized db r db' := by
  obtain ⟨user, huser, hactive, hpermission, rfl⟩ := requirePermission_ok hcall
  obtain ⟨⟨job, job', hjob, hmanage, hset, howner⟩, hhistory, hexecutions⟩ := h
  have hentitled : Entitled db r id :=
    ⟨_, _, user, job, htarget, huser, hactive, hpermission, hjob, canManage_iff.mp hmanage⟩
  refine ⟨?_, ?_, ?_, ?_⟩
  · intro j other hget hne
    rw [hset, Table.get?_set] at hne
    split_ifs at hne with hj
    · exact hj ▸ hentitled
    · exact absurd hget hne
  · intro k entry hget hne _
    exact hhistory k entry hget hne ▸ hentitled
  · intro k execution hget hnone
    rw [hexecutions, hnone] at hget
    cases hget
  · intro j other hget
    rw [hset, Table.get?_set]
    split_ifs with hj
    · obtain rfl : job = other := Option.some.inj (hjob.symm.trans (hj ▸ hget))
      exact ⟨job', rfl, howner⟩
    · exact ⟨other, hget, rfl⟩

end Services

theorem commit_authorized {op : Operation} {n : Notification} (h : op.commit db = .ok (db', n)) :
    Authorized db (.edit op) db' := by
  obtain ⟨call, hperformed⟩ := commit_ok h
  cases op with
  | createCronJob sender body =>
    obtain ⟨-, checked, id, hc⟩ := hperformed
    exact createCronJob_authorized hc
  | updateCronJob sender id body =>
    obtain ⟨hcall, checked, hc⟩ := hperformed
    exact (updateCronJob_write hc).authorized hcall rfl
  | updateCronJobStatus sender id body =>
    obtain ⟨hcall, hc⟩ := hperformed
    exact (updateCronJobStatus_write hc).authorized hcall rfl
  | deleteCronJob sender id =>
    obtain ⟨hcall, hc⟩ := hperformed
    exact (deleteCronJob_write hc).authorized hcall rfl
  | createScript sender host body =>
    obtain ⟨-, checked, id, hc⟩ := hperformed
    exact (createScript_same hc).authorized
  | updateScript sender host id body =>
    obtain ⟨-, checked, hc⟩ := hperformed
    exact (updateScript_same hc).authorized
  | deleteScript sender id => exact (deleteScript_same hperformed.2).authorized

section Runs

variable {env : Environment} {call : RunCall}

/-- What a call of `_run` adds: at most its own execution. -/
structure RunWrite (jobId : ℕ) (trigger : Trigger) (db db' : Database) : Prop where
  cronJobs : db'.cronJobs = db.cronJobs
  cronJobHistory : db'.cronJobHistory = db.cronJobHistory
  executions : ∀ k execution, db'.executions.get? k = some execution → db.executions.get? k = none →
    execution.cronJobId = some jobId ∧ execution.trigger = trigger

theorem RunWrite.refl (jobId : ℕ) (trigger : Trigger) (db : Database) :
    RunWrite jobId trigger db db := by
  refine ⟨rfl, rfl, ?_⟩
  intro k execution hget hnone
  rw [hnone] at hget
  cases hget

theorem startRun_write {running : Running} (h : startRun env call db = .ok (running, db')) :
    RunWrite call.jobId call.trigger db db' ∧ running.executionId = db.executions.nextId := by
  obtain ⟨resolved, -, -, rfl, rfl⟩ := startRun_eq_ok h
  refine ⟨⟨rfl, rfl, ?_⟩, rfl⟩
  intro k execution hget hnone
  have hnew := insert_new (t := db.executions) hget (by simp [hnone])
  rw [hnew]
  exact ⟨rfl, rfl⟩

theorem run_write (env : Environment) (call : RunCall) (db : Database) :
    RunWrite call.jobId call.trigger db (run env call db).1 := by
  unfold run
  cases hs : startRun env call db with
  | error e => exact .refl _ _ db
  | ok started =>
    obtain ⟨running, db₁⟩ := started
    obtain ⟨hwrite, hid⟩ := startRun_write hs
    dsimp only
    cases hf : finishRun env running db₁ with
    | error e => exact hwrite
    | ok db₂ =>
      obtain ⟨result, row, job, script, -, hrow, -, -, rfl⟩ := finishRun_eq_ok hf
      refine ⟨hwrite.cronJobs, hwrite.cronJobHistory, ?_⟩
      intro k execution hget hnone
      change (db₁.executions.set running.executionId (finishedExecution env.now result row)).get? k = _ at hget
      rw [Table.get?_set] at hget
      split_ifs at hget with hk
      · have hstarted := hwrite.executions running.executionId row hrow (by rw [← hk, hnone])
        obtain rfl := Option.some.inj hget
        exact hstarted
      · exact hwrite.executions k execution hget hnone

theorem run_denied {e : ExecutionError} (h : run env call db = (db', .error e)) :
    db' = db ∨ isDenial (ofExecutionError e) = false := by
  unfold run at h
  cases hs : startRun env call db with
  | error e =>
    rw [hs] at h
    exact .inl (Prod.mk.inj h).1.symm
  | ok started =>
    obtain ⟨running, db₁⟩ := started
    rw [hs] at h
    dsimp only at h
    cases hf : finishRun env running db₁ with
    | ok db₂ =>
      rw [hf] at h
      cases h
    | error e =>
      rw [hf] at h
      obtain ⟨-, h⟩ := Prod.mk.inj h
      obtain rfl := Except.error.inj h
      obtain ⟨error, rfl⟩ | rfl := finishRun_error hf
      · right
        change isDenial (ofPathError error) = false
        unfold ofPathError
        split <;> rfl
      · exact .inr rfl

end Runs

theorem manualCall_ok {call : Call} {jobId : ℕ} {runCall : RunCall}
    (h : manualCall db call jobId = .ok runCall) :
    ∃ job, db.cronJobs.get? jobId = some job ∧
      (job.ownerId = call.actor.id ∨ isFullAccessRole call.actor.user.role) ∧
      runCall.jobId = jobId ∧ runCall.trigger = .manual := by
  obtain ⟨job, hjob, hexecute, rfl⟩ := manualCall_eq_ok h
  exact ⟨job, (Database.liveJob_eq_some.mp hjob).1, canManage_iff.mp hexecute, rfl, rfl⟩

theorem execute_authorized (env : Environment) (sender : Sender) (jobId : ℕ) (db : Database) :
    Authorized db (.execute env sender jobId) (executeCronJob env sender jobId db).1 := by
  unfold executeCronJob
  cases hcall : requirePermission db sender .executionsExecute with
  | error e => exact (SameJobs.refl db).authorized
  | ok call =>
    obtain ⟨user, huser, hactive, hpermission, rfl⟩ := requirePermission_ok hcall
    change Authorized db _ (runCronJob env _ jobId db).1
    unfold runCronJob
    cases hmanual : manualCall db _ jobId with
    | error e => exact (SameJobs.refl db).authorized
    | ok runCall =>
      obtain ⟨job, hjob, howner, rfl, htrigger⟩ := manualCall_ok hmanual
      have hwrite := run_write env runCall db
      refine ⟨?_, ?_, ?_, ?_⟩
      · intro id other hget hne
        exact absurd (hwrite.cronJobs ▸ hget) hne
      · intro k entry hget hne
        exact absurd (hwrite.cronJobHistory ▸ hget) hne
      · intro k execution hget hnone _
        obtain ⟨hid, -⟩ := hwrite.executions k execution hget hnone
        exact ⟨_, hid, _, _, user, job, rfl, huser, hactive, hpermission, hjob, howner⟩
      · intro id other hget
        exact ⟨other, hwrite.cronJobs ▸ hget, rfl⟩

theorem runCronJob_denied {env : Environment} {call : Call} {jobId : ℕ} {e : ExecutionError}
    (h : runCronJob env call jobId db = (db', .error e)) :
    db' = db ∨ isDenial (ofExecutionError e) = false := by
  unfold runCronJob at h
  cases hmanual : manualCall db call jobId with
  | error e' =>
    rw [hmanual] at h
    exact .inl (Prod.mk.inj h).1.symm
  | ok runCall =>
    rw [hmanual] at h
    exact run_denied h

theorem execute_denied {env : Environment} {sender : Sender} {jobId : ℕ} {e : HttpError}
    (h : (executeCronJob env sender jobId db).2 = .error e) (hdenied : isDenial e) :
    (executeCronJob env sender jobId db).1 = db := by
  unfold executeCronJob at h ⊢
  cases hcall : requirePermission db sender .executionsExecute with
  | error e' => rfl
  | ok call =>
    rw [hcall] at h
    dsimp only at h ⊢
    cases hrun : runCronJob env call jobId db with | mk db' outcome =>
    rw [hrun] at h
    dsimp only at h ⊢
    cases outcome with
    | ok id => cases h
    | error e' =>
      obtain rfl := Except.error.inj h
      obtain rfl | hno := runCronJob_denied hrun
      · rfl
      · rw [hdenied] at hno
        cases hno

theorem runScheduledJob_write (env : Environment) (jobId : ℕ) (db : Database) :
    RunWrite jobId .scheduled db (runScheduledJob env jobId db) := by
  unfold runScheduledJob
  cases hjob : db.liveJob jobId with
  | none => exact .refl _ _ db
  | some job =>
    dsimp only
    split_ifs with hactive hrunning
    · exact .refl _ _ db
    · exact ⟨rfl, rfl, (RunWrite.refl _ _ db).executions⟩
    · unfold runScheduledCronJob
      rw [hjob]
      dsimp only
      have hwrite := run_write env (scheduledCall jobId job) db
      cases hrun : run env (scheduledCall jobId job) db with | mk db' outcome =>
      rw [hrun] at hwrite
      cases outcome with
      | ok id => exact hwrite
      | error e =>
        dsimp only
        unfold recordFailure
        cases skipReason e with
        | none => exact hwrite
        | some reason => exact ⟨hwrite.cronJobs, hwrite.cronJobHistory, hwrite.executions⟩

/-- What no run touches. -/
structure RunFrame (db db' : Database) : Prop where
  roles : db'.roles = db.roles
  users : db'.users = db.users
  revokedTokens : db'.revokedTokens = db.revokedTokens
  cronJobs : db'.cronJobs = db.cronJobs
  cronJobHistory : db'.cronJobHistory = db.cronJobHistory
  scripts : db'.scripts = db.scripts

theorem RunFrame.refl (db : Database) : RunFrame db db := ⟨rfl, rfl, rfl, rfl, rfl, rfl⟩

theorem run_frame (env : Environment) (call : RunCall) (db : Database) :
    RunFrame db (run env call db).1 := by
  unfold run
  cases hs : startRun env call db with
  | error e => exact .refl db
  | ok started =>
    obtain ⟨running, db₁⟩ := started
    obtain ⟨resolved, -, -, rfl, rfl⟩ := startRun_eq_ok hs
    dsimp only
    cases hf : finishRun env _ _ with
    | error e => exact ⟨rfl, rfl, rfl, rfl, rfl, rfl⟩
    | ok db₂ =>
      obtain ⟨result, row, job, script, -, -, -, -, rfl⟩ := finishRun_eq_ok hf
      exact ⟨rfl, rfl, rfl, rfl, rfl, rfl⟩

theorem execute_frame (env : Environment) (sender : Sender) (jobId : ℕ) (db : Database) :
    RunFrame db (executeCronJob env sender jobId db).1 := by
  unfold executeCronJob
  split
  · exact .refl db
  · unfold runCronJob
    dsimp only
    split
    · exact .refl db
    · exact run_frame env _ db

theorem runScheduledJob_frame (env : Environment) (jobId : ℕ) (db : Database) :
    RunFrame db (runScheduledJob env jobId db) := by
  unfold runScheduledJob
  cases hjob : db.liveJob jobId with
  | none => exact .refl db
  | some job =>
    dsimp only
    split_ifs
    · exact .refl db
    · exact ⟨rfl, rfl, rfl, rfl, rfl, rfl⟩
    · unfold runScheduledCronJob
      rw [hjob]
      dsimp only
      have hframe := run_frame env (scheduledCall jobId job) db
      cases hrun : run env (scheduledCall jobId job) db with | mk db' outcome =>
      rw [hrun] at hframe
      cases outcome with
      | ok id => exact hframe
      | error e =>
        dsimp only
        unfold recordFailure
        cases skipReason e with
        | none => exact hframe
        | some reason =>
          exact ⟨hframe.roles, hframe.users, hframe.revokedTokens, hframe.cronJobs,
            hframe.cronJobHistory, hframe.scripts⟩

theorem fire_authorized (env : Environment) (jobId : ℕ) (db : Database) :
    Authorized db (.fire env jobId) (runScheduledJob env jobId db) := by
  have hwrite := runScheduledJob_write env jobId db
  refine ⟨?_, ?_, ?_, ?_⟩
  · intro id job hget hne
    exact absurd (hwrite.cronJobs ▸ hget) hne
  · intro k entry hget hne
    exact absurd (hwrite.cronJobHistory ▸ hget) hne
  · intro k execution hget hnone hmanual
    obtain ⟨-, hscheduled⟩ := hwrite.executions k execution hget hnone
    rw [hscheduled] at hmanual
    cases hmanual
  · intro id job hget
    exact ⟨job, hwrite.cronJobs ▸ hget, rfl⟩

section Panel

variable (bcrypt : Bcrypt) (settings : Settings)

theorem serve_authorized (db : Database) (r : Request) :
    Authorized db r (r.serve bcrypt settings db).1 := by
  cases r with
  | account r =>
    have hframe := serve_frame bcrypt settings db r
    exact SameJobs.authorized ⟨hframe.cronJobs, hframe.cronJobHistory, hframe.executions⟩
  | edit op =>
    change Authorized db _ (answer db (Prod.fst <$> op.commit db)).1
    cases hc : op.commit db with
    | error e => exact (SameJobs.refl db).authorized
    | ok result => exact commit_authorized hc
  | execute env sender jobId => exact execute_authorized env sender jobId db
  | fire env jobId => exact fire_authorized env jobId db

theorem serve_denied (db : Database) (r : Request) {e : HttpError}
    (h : (r.serve bcrypt settings db).2 = .error e)
    (hdenied : isDenial e) : SameJobs db (r.serve bcrypt settings db).1 := by
  cases r with
  | account r =>
    have hframe := serve_frame bcrypt settings db r
    exact ⟨hframe.cronJobs, hframe.cronJobHistory, hframe.executions⟩
  | edit op =>
    change SameJobs db (answer db (Prod.fst <$> op.commit db)).1
    cases hc : op.commit db with
    | error e' => exact .refl db
    | ok result =>
      change (answer db (Prod.fst <$> op.commit db)).2 = .error e at h
      rw [hc] at h
      cases h
  | execute env sender jobId =>
    change (executeCronJob env sender jobId db).2.map (fun _ ↦ ()) = .error e at h
    have herror : (executeCronJob env sender jobId db).2 = .error e := by
      cases hout : (executeCronJob env sender jobId db).2 with
      | ok id =>
        rw [hout] at h
        cases h
      | error e' =>
        rw [hout] at h
        exact congrArg Except.error (Except.error.inj h)
    have hsame := execute_denied herror hdenied
    change SameJobs db (executeCronJob env sender jobId db).1
    rw [hsame]
    exact .refl db
  | fire env jobId => cases h

/-- Along every run, what changes a job, its history or its manual executions was allowed to
by the database of that moment, what is turned away changes none of them, and no job
changes its owner. -/
theorem changes_authorized (db : Database) (rs : List Request) :
    Guarded (step bcrypt settings) (fun db r ↦ Authorized db r (r.serve bcrypt settings db).1 ∧
        ∀ e, (r.serve bcrypt settings db).2 = .error e → isDenial e →
          SameJobs db (r.serve bcrypt settings db).1)
      db rs ∧
    Always (step bcrypt settings) (fun db' ↦ ∀ id job, db.cronJobs.get? id = some job →
      ∃ job', db'.cronJobs.get? id = some job' ∧ job'.ownerId = job.ownerId) db rs := by
  constructor
  · refine guarded_of_forall ?_ db rs
    intro db r
    exact ⟨serve_authorized bcrypt settings db r,
      fun e h hdenied ↦ serve_denied bcrypt settings db r h hdenied⟩
  · refine always ?_ fun id job hget ↦ ⟨job, hget, rfl⟩
    intro db₁ r db₂ hkept hstep id job hget
    obtain ⟨job₁, hget₁, howner₁⟩ := hkept id job hget
    obtain rfl := Option.some.inj hstep
    obtain ⟨job₂, hget₂, howner₂⟩ := (serve_authorized bcrypt settings db₁ r).owner id job₁ hget₁
    exact ⟨job₂, hget₂, howner₂.trans howner₁⟩

end Panel

end CronPanel.Access.Writes
