import CronPanel.Access.Writes
import CronPanel.Api.Transactions
import CronPanel.Sessions.Edits

namespace CronPanel.Access.Durability

open Library.Strings Library.JsonData Library.Tables Library.Fallible Library.Transactions
open Library.Transactions.Procedure Core.Permissions Core.PasswordPolicy Core.Security Data.Records
open Data.Repositories Schemas.Bodies Schemas.Accounts Services.Audit Services.CronJobs Services.Auth Services.Users
open Services.Scripts Services.Executions Services.Trail Execution.Policy Execution.Executor
open Scheduler.Jobs Api.Errors Api.Accounts Api.Operations Api.Executions Api.Frames Api.Requests
open Sessions.Changes Sessions.Edits Panel Writes

variable (bcrypt : Bcrypt) (settings : Settings)

/-- The steps of a request, with its commits. -/
def Request.procedure : Request → Procedure Database HttpError Unit
  | .account r => Api.Transactions.AccountRequest.procedure bcrypt settings r
  | .edit op => Api.Transactions.Operation.procedure op
  | .execute env sender jobId => do
    let _ ← Api.Transactions.executeCronJob env sender jobId
    return
  | .fire env jobId => Services.Transactions.runScheduledJob env jobId

theorem commits_answer {p : Procedure Database HttpError Unit}
    {f : Database → Except HttpError Database}
    (h : Commits (Prod.mk ()) p f) (db : Database) :
    (p.run (.opened db)).1.stored = (answer db (f db)).1 ∧
      (p.run (.opened db)).2 = (answer db (f db)).2 := by
  have hresult := h.result db
  cases hf : f db with
  | error e =>
    rw [hf] at hresult
    exact ⟨h.unchanged hf, hresult⟩
  | ok db' =>
    rw [hf] at hresult
    exact ⟨h.stored hf, hresult⟩

theorem account_run (db : Database) (r : AccountRequest) :
    ((Request.procedure bcrypt settings (.account r)).run (.opened db)).1.stored =
        (r.serve bcrypt settings db).1 ∧
      ((Request.procedure bcrypt settings (.account r)).run (.opened db)).2 =
        (r.serve bcrypt settings db).2 := by
  cases r with
  | login now ipAddress jti username password =>
    have h :=
        run_bind_pure (Api.Transactions.login bcrypt settings now ipAddress jti username password)
      (fun _ ↦ ()) (.opened db)
    rw [Api.Transactions.login_run] at h
    exact ⟨congrArg (fun r ↦ r.1.stored) h, congrArg Prod.snd h⟩
  | logout bearer =>
    change ((Api.Transactions.logout bearer).run _).1.stored =
      (answer db (Api.Accounts.logout bearer db)).1 ∧
      ((Api.Transactions.logout bearer).run _).2 = (answer db (Api.Accounts.logout bearer db)).2
    rw [Api.Transactions.logout_run]
    cases Api.Accounts.logout bearer db <;> exact ⟨rfl, rfl⟩
  | changePassword bearer salt body =>
    have h := Api.Transactions.changePassword_run bcrypt settings bearer salt body db
    exact ⟨congrArg (fun r ↦ r.1.stored) h, congrArg Prod.snd h⟩
  | createUser bearer salt body =>
    exact commits_answer (Api.Transactions.createUser_commits bcrypt settings bearer salt body) db
  | updateUser bearer salt id body =>
    exact commits_answer (Api.Transactions.updateUser_commits bcrypt settings bearer salt id body) db
  | deleteUser bearer id =>
    exact commits_answer (Api.Transactions.deleteUser_commits bcrypt settings bearer id) db

/-- The steps of a request come to what the request is served with. -/
theorem procedure_run (db : Database) (r : Request) :
    ((Request.procedure bcrypt settings r).run (.opened db)).1.stored =
        (r.serve bcrypt settings db).1 ∧
      ((Request.procedure bcrypt settings r).run (.opened db)).2 =
        (r.serve bcrypt settings db).2 := by
  cases r with
  | account r => exact account_run bcrypt settings db r
  | edit op => exact commits_answer (Api.Transactions.edit_commits op) db
  | execute env sender jobId =>
    have h := run_bind_pure (Api.Transactions.executeCronJob env sender jobId) (fun _ ↦ ())
        (.opened db)
    rw [Api.Transactions.executeCronJob_run] at h
    exact ⟨congrArg (fun r ↦ r.1.stored) h, congrArg Prod.snd h⟩
  | fire env jobId =>
    have h := @Services.Transactions.runScheduledJob_run HttpError env jobId db
    exact ⟨congrArg (fun r ↦ r.1.stored) h, congrArg Prod.snd h⟩

section Accounts

/-- One of the entries tells of an action on a row. -/
def Told (entries : List AuditLog) (action : AuditAction) (resource : Text) (id : ℕ) : Prop :=
  ∃ entry ∈ entries, entry.action = action ∧ entry.resource = some resource ∧
    entry.resourceId = some (decimal id)

/-- One of the entries tells of what the owner of an account does. -/
def ToldOf (entries : List AuditLog) (action : AuditAction) (userId : ℕ) : Prop :=
  ∃ entry ∈ entries, entry.action = action ∧ entry.userId = some userId

/-- The entry that a request owes for a new password. -/
def PasswordTold (r : Request) (entries : List AuditLog) (id : ℕ) : Prop :=
  match r with
  | .account (.changePassword ..) => ToldOf entries .passwordChange id
  | _ => Told entries .passwordReset "user".toList id

/-- What happened to a row of a table is told by the entries. -/
def UserTold (r : Request) (entries : List AuditLog) (id : ℕ) : Option User → Option User → Prop
  | none, none => True
  | none, some _ => Told entries .userCreate "user".toList id
  | some _, none => Told entries .userDelete "user".toList id
  | some old, some new =>
    (new.isActive ≠ old.isActive →
      Told entries (if new.isActive then .userActivate else .userDeactivate) "user".toList id) ∧
    (new.role ≠ old.role → Told entries .roleChange "user".toList id) ∧
    (new.email ≠ old.email → Told entries .userUpdate "user".toList id) ∧
    (new.hashedPassword ≠ old.hashedPassword → PasswordTold r entries id) ∧
    (new.lastLoginAt ≠ old.lastLoginAt → ToldOf entries .loginSuccess id)

def JobTold (entries : List AuditLog) (id : ℕ) : Option CronJob → Option CronJob → Prop
  | none, none => True
  | none, some _ => Told entries .cronJobCreated "cron_job".toList id
  | some _, none => False
  | some old, some new =>
    (new.name ≠ old.name ∨ new.description ≠ old.description ∨ new.command ≠ old.command ∨
        new.scriptId ≠ old.scriptId ∨ new.scheduleExpression ≠ old.scheduleExpression →
      Told entries .cronJobUpdated "cron_job".toList id) ∧
    (new.isDeleted ≠ old.isDeleted → Told entries .cronJobDeleted "cron_job".toList id) ∧
    (new.isDeleted = old.isDeleted → new.isActive ≠ old.isActive →
      Told entries (if new.isActive then .cronJobEnabled else .cronJobDisabled) "cron_job".toList id)

def ScriptTold (entries : List AuditLog) (id : ℕ) : Option Script → Option Script → Prop
  | none, none => True
  | none, some _ => Told entries .scriptCreated "script".toList id
  | some _, none => False
  | some old, some new =>
    (new.name ≠ old.name ∨ new.description ≠ old.description ∨ new.path ≠ old.path ∨
        new.isEnabled ≠ old.isEnabled → Told entries .scriptUpdated "script".toList id) ∧
    (new.isEnabled ≠ old.isEnabled →
      Told entries (if new.isEnabled then .scriptEnabled else .scriptDisabled) "script".toList id) ∧
    (new.isDeleted ≠ old.isDeleted → Told entries .scriptDeleted "script".toList id)

/-- The action of the entry with which an execution ends. -/
def finalAction : Status → Option AuditAction
  | .running => none
  | .success => some .executionSucceeded
  | .failed => some .executionFailed
  | .timedOut => some .executionTimedOut

def ExecutionTold (entries : List AuditLog) (id : ℕ) : Option Execution → Option Execution → Prop
  | none, none => True
  | none, some new => Told entries .executionStarted "execution".toList id ∧
      ∀ action, finalAction new.status = some action → Told entries action "execution".toList id
  | some _, none => False
  | some old, some new => new = old

def TokenTold (entries : List AuditLog) : Option RevokedToken → Option RevokedToken → Prop
  | none, some new => ∃ entry ∈ entries, entry.action = .logout ∧ entry.resourceId = some new.jti
  | _, _ => True

/-- What a state of the store contains of a request's changes, its trail tells. -/
structure Accounted (r : Request) (db t : Database) : Prop where
  users : ∀ id, UserTold r (newEntries db t) id (db.users.get? id) (t.users.get? id)
  jobs : ∀ id, JobTold (newEntries db t) id (db.cronJobs.get? id) (t.cronJobs.get? id)
  scripts : ∀ id, ScriptTold (newEntries db t) id (db.scripts.get? id) (t.scripts.get? id)
  executions : ∀ id,
    ExecutionTold (newEntries db t) id (db.executions.get? id) (t.executions.get? id)
  tokens : ∀ id, TokenTold (newEntries db t) (db.revokedTokens.get? id) (t.revokedTokens.get? id)

end Accounts

section Frames

variable {r : Request} {db t : Database} {entries : List AuditLog} {id : ℕ}

theorem userTold_refl (r : Request) (entries : List AuditLog) (id : ℕ) (user : Option User) :
    UserTold r entries id user user := by
  cases user with
  | none => trivial
  | some user =>
    exact ⟨absurd rfl, absurd rfl, absurd rfl, absurd rfl, absurd rfl⟩

theorem jobTold_refl (entries : List AuditLog) (id : ℕ) (job : Option CronJob) :
    JobTold entries id job job := by
  cases job with
  | none => trivial
  | some job =>
    refine ⟨?_, absurd rfl, fun _ ↦ absurd rfl⟩
    intro hne
    simp only [ne_eq, not_true, or_self] at hne

theorem scriptTold_refl (entries : List AuditLog) (id : ℕ) (script : Option Script) :
    ScriptTold entries id script script := by
  cases script with
  | none => trivial
  | some script =>
    refine ⟨?_, absurd rfl, absurd rfl⟩
    intro hne
    simp only [ne_eq, not_true, or_self] at hne

theorem executionTold_refl (entries : List AuditLog) (id : ℕ) (execution : Option Execution) :
    ExecutionTold entries id execution execution := by
  cases execution with
  | none => trivial
  | some execution => rfl

theorem tokenTold_refl (entries : List AuditLog) (token : Option RevokedToken) :
    TokenTold entries token token := by
  cases token <;> trivial

/-- The tables with the rows that are audited. -/
structure SameRows (db t : Database) : Prop where
  users : t.users = db.users
  cronJobs : t.cronJobs = db.cronJobs
  scripts : t.scripts = db.scripts
  executions : t.executions = db.executions
  revokedTokens : t.revokedTokens = db.revokedTokens

theorem SameRows.accounted (h : SameRows db t) : Accounted r db t := by
  obtain ⟨husers, hjobs, hscripts, hexecutions, htokens⟩ := h
  refine ⟨?_, ?_, ?_, ?_, ?_⟩
  · exact Table.related_of_eq (userTold_refl r _) husers
  · exact Table.related_of_eq (jobTold_refl _) hjobs
  · exact Table.related_of_eq (scriptTold_refl _) hscripts
  · exact Table.related_of_eq (executionTold_refl _) hexecutions
  · exact Table.related_of_eq (fun _ ↦ tokenTold_refl _) htokens

theorem accounted_of (happends : Appends db t entries)
    (users : ∀ id, UserTold r entries id (db.users.get? id) (t.users.get? id))
    (jobs : ∀ id, JobTold entries id (db.cronJobs.get? id) (t.cronJobs.get? id))
    (scripts : ∀ id, ScriptTold entries id (db.scripts.get? id) (t.scripts.get? id))
    (executions : ∀ id, ExecutionTold entries id (db.executions.get? id) (t.executions.get? id))
    (tokens : ∀ id, TokenTold entries (db.revokedTokens.get? id) (t.revokedTokens.get? id)) :
    Accounted r db t := by
  obtain rfl := happends.newEntries
  exact ⟨users, jobs, scripts, executions, tokens⟩

end Frames

section Edits

variable {r : Request} {call : Call} {db db' : Database} {id : ℕ}

/-- The operations on a job end with the entry about it. -/
theorem accounted_job {job : CronJob} {action : AuditAction} {history : HistoryAction}
    {changes : List Change} {details : List (Text × Json)}
    (h : ∀ entries, Told entries action "cron_job".toList id →
      JobTold entries id (db.cronJobs.get? id) (some job)) :
    Accounted r db (recordJobEvent call action id details
      (recordHistory call id history changes { db with cronJobs := db.cronJobs.set id job })) := by
  refine accounted_of (appends_event _ _ _) (fun id ↦ userTold_refl r _ id _) ?_
    (fun id ↦ scriptTold_refl _ id _) (fun id ↦ executionTold_refl _ id _) fun id ↦
      tokenTold_refl _ _
  exact Table.related_set (jobTold_refl _) (h _ ⟨_, List.mem_singleton_self _, rfl, rfl, rfl⟩)

theorem createCronJob_accounted {body : CronJobCreate}
    (h : Services.CronJobs.createCronJob call body db = .ok (id, db')) : Accounted r db db' := by
  obtain ⟨⟨⟩, -, h⟩ := bind_eq_ok.mp h
  obtain ⟨job, -, h⟩ := bind_eq_ok.mp h
  cases h
  apply accounted_job
  intro entries htold
  rw [Table.get?_nextId]
  exact htold

theorem updateCronJob_accounted {body : CronJobUpdate}
    (h : Services.CronJobs.updateCronJob call id body db = .ok db') : Accounted r db db' := by
  obtain ⟨job, hjob, h⟩ := bind_eq_ok.mp h
  obtain ⟨hlive, -⟩ := getJobForWrite_ok hjob
  obtain ⟨⟨⟩, -, h⟩ := bind_eq_ok.mp h
  obtain ⟨⟨edited, changes⟩, hedit, h⟩ := bind_eq_ok.mp h
  obtain ⟨-, hdeleted, hactive⟩ := editCronJob_kept hedit
  dsimp only at h
  split_ifs at h
  · cases h
    exact SameRows.accounted ⟨rfl, rfl, rfl, rfl, rfl⟩
  · cases h
    apply accounted_job
    intro entries htold
    rw [(Database.liveJob_eq_some.mp hlive).1]
    have hkept : (touch call.now job edited).isDeleted = job.isDeleted ∧
        (touch call.now job edited).isActive = job.isActive := by
      unfold touch
      split_ifs
      · exact ⟨rfl, rfl⟩
      · exact ⟨hdeleted, hactive⟩
    exact ⟨fun _ ↦ htold, absurd hkept.1, fun _ ↦ absurd hkept.2⟩

theorem updateCronJobStatus_accounted {isActive : Bool}
    (h : Services.CronJobs.updateCronJobStatus call id isActive db = .ok db') :
    Accounted r db db' := by
  obtain ⟨job, hjob, h⟩ := bind_eq_ok.mp h
  obtain ⟨hlive, -⟩ := getJobForWrite_ok hjob
  by_cases hsame : job.isActive = isActive
  · rw [if_pos hsame] at h
    cases h
    exact SameRows.accounted ⟨rfl, rfl, rfl, rfl, rfl⟩
  · rw [if_neg hsame] at h
    cases h
    apply accounted_job
    intro entries htold
    rw [(Database.liveJob_eq_some.mp hlive).1]
    refine ⟨?_, absurd rfl, fun _ _ ↦ htold⟩
    intro hne
    simp only [ne_eq, not_true, or_self] at hne

theorem deleteCronJob_accounted (h : Services.CronJobs.deleteCronJob call id db = .ok db') :
    Accounted r db db' := by
  obtain ⟨job, hjob, h⟩ := bind_eq_ok.mp h
  obtain ⟨hlive, -⟩ := getJobForWrite_ok hjob
  obtain ⟨hget, hkept⟩ := Database.liveJob_eq_some.mp hlive
  cases h
  apply accounted_job
  intro entries htold
  rw [hget]
  refine ⟨?_, fun _ ↦ htold, ?_⟩
  · intro hne
    simp only [ne_eq, not_true, or_self] at hne
  · intro hsame
    rw [hkept] at hsame
    cases hsame

/-- The operations on a script end with the entries about it. -/
theorem accounted_script (id : ℕ) (script : Script) {t : Database} {entries : List AuditLog}
    (happends : Appends db t entries)
    (hsame : SameRows { db with scripts := db.scripts.set id script } t)
    (h : ScriptTold entries id (db.scripts.get? id) (some script)) : Accounted r db t := by
  obtain ⟨husers, hjobs, hscripts, hexecutions, htokens⟩ := hsame
  refine accounted_of happends ?_ ?_ ?_ ?_ ?_
  · exact Table.related_of_eq (userTold_refl r _) husers
  · exact Table.related_of_eq (jobTold_refl _) hjobs
  · rw [hscripts]
    exact Table.related_set (scriptTold_refl _) h
  · exact Table.related_of_eq (executionTold_refl _) hexecutions
  · exact Table.related_of_eq (fun _ ↦ tokenTold_refl _) htokens

theorem createScript_accounted {host : Host} {body : ScriptCreate}
    (h : Services.Scripts.createScript call host body db = .ok (id, db')) : Accounted r db db' := by
  obtain ⟨validated, -, h⟩ := bind_eq_ok.mp h
  dsimp only at h
  split_ifs at h
  cases h
  refine accounted_script _ _ (appends_event _ _ _) ⟨rfl, rfl, rfl, rfl, rfl⟩ ?_
  rw [Table.get?_nextId]
  exact ⟨_, List.mem_singleton_self _, rfl, rfl, rfl⟩

theorem editScript_kept {host : Host} {body : ScriptUpdate} {script edited : Script}
    {changes : List Change} (h : editScript db host id body script = .ok (edited, changes)) :
    edited.isDeleted = script.isDeleted := by
  obtain ⟨⟨name, onName⟩, -, h⟩ := bind_eq_ok.mp h
  obtain ⟨⟨path, onPath⟩, -, h⟩ := bind_eq_ok.mp h
  cases h
  rfl

/-- The entries of an update of a script. -/
theorem recordScriptUpdate_appends (call : Call) (id : ℕ) (old new : Script) (changes : List Change)
    (db : Database) :
    ∃ entries, Appends db (recordScriptUpdate call id old new changes db) entries ∧
      Told entries .scriptUpdated "script".toList id ∧
      (new.isEnabled ≠ old.isEnabled →
        Told entries (if new.isEnabled then .scriptEnabled else .scriptDisabled) "script".toList id) := by
  unfold recordScriptUpdate
  by_cases hsame : old.isEnabled = new.isEnabled
  · rw [if_pos hsame]
    exact ⟨_, appends_event _ _ db, ⟨_, List.mem_singleton_self _, rfl, rfl, rfl⟩,
      absurd hsame.symm⟩
  · rw [if_neg hsame]
    refine ⟨_, (appends_event _ _ db).trans (appends_event _ _ _), ?_, ?_⟩
    · exact ⟨_, List.mem_cons_self, rfl, rfl, rfl⟩
    · intro _
      exact ⟨_, List.mem_cons_of_mem _ (List.mem_singleton_self _), rfl, rfl, rfl⟩

theorem updateScript_accounted {host : Host} {body : ScriptUpdate}
    (h : Services.Scripts.updateScript call host id body db = .ok db') : Accounted r db db' := by
  obtain ⟨script, hscript, h⟩ := bind_eq_ok.mp h
  obtain ⟨⟨edited, changes⟩, hedit, h⟩ := bind_eq_ok.mp h
  have hkept := editScript_kept hedit
  dsimp only at h
  by_cases hnil : changes = []
  · rw [if_pos hnil] at h
    cases h
    exact SameRows.accounted ⟨rfl, rfl, rfl, rfl, rfl⟩
  · rw [if_neg hnil] at h
    by_cases htaken : pathTaken db id edited.path
    · rw [if_pos htaken] at h
      cases h
    · rw [if_neg htaken] at h
      cases h
      generalize hstored : (if edited = script then script
        else { edited with updatedAt := call.now }) = stored
      have hrecorded := recordScriptUpdate_appends call id script edited changes
        { db with scripts := db.scripts.set id stored }
      obtain ⟨entries, (happends : Appends db _ entries), hupdated, henabled⟩ := hrecorded
      refine accounted_script id stored happends ?_ ?_
      · unfold recordScriptUpdate
        split_ifs <;> exact ⟨rfl, rfl, rfl, rfl, rfl⟩
      · rw [(Database.liveScript_eq_some.mp (getScript_ok hscript)).1, ← hstored]
        split_ifs
        · exact scriptTold_refl entries id (some script)
        · exact ⟨fun _ ↦ hupdated, henabled, absurd hkept⟩

theorem deleteScript_accounted (h : Services.Scripts.deleteScript call id db = .ok db') :
    Accounted r db db' := by
  obtain ⟨script, hscript, h⟩ := bind_eq_ok.mp h
  split_ifs at h
  cases h
  refine accounted_script _ _ (appends_event _ _ _) ⟨rfl, rfl, rfl, rfl, rfl⟩ ?_
  rw [(Database.liveScript_eq_some.mp (getScript_ok hscript)).1]
  refine ⟨?_, absurd rfl, ?_⟩
  · intro hne
    simp only [ne_eq, not_true, or_self] at hne
  · intro _
    exact ⟨_, List.mem_singleton_self _, rfl, rfl, rfl⟩

theorem commit_accounted {op : Operation} {n : Notification} (h : op.commit db = .ok (db', n)) :
    Accounted r db db' := by
  obtain ⟨call, hperformed⟩ := commit_ok h
  cases op with
  | createCronJob sender body =>
    obtain ⟨-, checked, id, hc⟩ := hperformed
    exact createCronJob_accounted hc
  | updateCronJob sender id body =>
    obtain ⟨-, checked, hc⟩ := hperformed
    exact updateCronJob_accounted hc
  | updateCronJobStatus sender id isActive => exact updateCronJobStatus_accounted hperformed.2
  | deleteCronJob sender id => exact deleteCronJob_accounted hperformed.2
  | createScript sender host body =>
    obtain ⟨-, checked, id, hc⟩ := hperformed
    exact createScript_accounted hc
  | updateScript sender host id body =>
    obtain ⟨-, checked, hc⟩ := hperformed
    exact updateScript_accounted hc
  | deleteScript sender id => exact deleteScript_accounted hperformed.2

end Edits

section Runs

variable {r : Request} {env : Environment} {call : RunCall} {db t : Database} {id : ℕ}

/-- What a run leaves, or a fire that is skipped: at most its own execution, with its entries. -/
structure Ran (db t : Database) : Prop extends RunFrame db t where
  executions : ∃ entries, Appends db t entries ∧
    ∀ id, ExecutionTold entries id (db.executions.get? id) (t.executions.get? id)

theorem Ran.refl (db : Database) : Ran db db :=
  ⟨.refl db, [], .of_same rfl, fun id ↦ executionTold_refl [] id _⟩

theorem Ran.accounted (h : Ran db t) : Accounted r db t := by
  obtain ⟨⟨-, husers, htokens, hjobs, -, hscripts⟩, entries, happends, hexecutions⟩ := h
  refine accounted_of happends ?_ ?_ ?_ hexecutions ?_
  · exact Table.related_of_eq (userTold_refl r _) husers
  · exact Table.related_of_eq (jobTold_refl _) hjobs
  · exact Table.related_of_eq (scriptTold_refl _) hscripts
  · exact Table.related_of_eq (fun _ ↦ tokenTold_refl _) htokens

theorem Told.append {entries : List AuditLog} {action : AuditAction} {resource : Text}
    (h : Told entries action resource id) (entries' : List AuditLog) :
    Told (entries ++ entries') action resource id := by
  obtain ⟨entry, hmem, hentry⟩ := h
  exact ⟨entry, List.mem_append_left _ hmem, hentry⟩

theorem ExecutionTold.append {entries : List AuditLog} {old new : Option Execution}
    (h : ExecutionTold entries id old new) (entries' : List AuditLog) :
    ExecutionTold (entries ++ entries') id old new := by
  cases old with
  | some old => cases new <;> exact h
  | none =>
    cases new with
    | none => trivial
    | some new => exact ⟨h.1.append _, fun action ha ↦ (h.2 action ha).append _⟩

theorem Ran.record (h : Ran db t) (now : Instant) (event : Event) :
    Ran db (recordEvent now event t) := by
  obtain ⟨⟨hroles, husers, htokens, hjobs, hhistory, hscripts⟩, entries, happends, hexecutions⟩ := h
  exact ⟨⟨hroles, husers, htokens, hjobs, hhistory, hscripts⟩, _,
    happends.trans (appends_event _ _ _), fun id ↦ (hexecutions id).append _⟩

theorem startRun_ran {running : Running} (h : startRun env call db = .ok (running, t)) :
    Ran db t := by
  obtain ⟨resolved, -, -, rfl, rfl⟩ := startRun_eq_ok h
  refine ⟨⟨rfl, rfl, rfl, rfl, rfl, rfl⟩, _, appends_event _ _ _, ?_⟩
  apply Table.related_set (executionTold_refl _)
  rw [Table.get?_nextId]
  refine ⟨⟨_, List.mem_singleton_self _, rfl, rfl, rfl⟩, ?_⟩
  intro action h
  cases h

theorem finalAction_finished (now : Instant) (result : ExecutionResult) (row : Execution) :
    finalAction (finishedExecution now result row).status = some (finalStatus result).2 := by
  change finalAction (finalStatus result).1 = _
  unfold finalStatus
  split_ifs <;> rfl

theorem run_ran (env : Environment) (call : RunCall) (db : Database) :
    Ran db (Services.Executions.run env call db).1 := by
  unfold Services.Executions.run
  cases hs : startRun env call db with
  | error e => exact .refl db
  | ok started =>
    obtain ⟨running, db₁⟩ := started
    have hran := startRun_ran hs
    dsimp only
    cases hf : finishRun env running db₁ with
    | error e => exact hran
    | ok db₂ =>
      obtain ⟨resolved, -, -, rfl, rfl⟩ := startRun_eq_ok hs
      obtain ⟨result, row, job, script, -, -, -, -, rfl⟩ := finishRun_eq_ok hf
      refine ⟨⟨rfl, rfl, rfl, rfl, rfl, rfl⟩, _,
        (appends_event _ (startedEvent call resolved db.executions.nextId) _).trans
          (appends_event _ (finalEvent _ result job script) _), ?_⟩
      dsimp only [recordEvent_executions]
      rw [Table.set_set]
      apply Table.related_set (executionTold_refl _)
      rw [Table.get?_nextId]
      refine ⟨⟨_, List.mem_cons_self, rfl, rfl, rfl⟩, ?_⟩
      intro action haction
      rw [finalAction_finished] at haction
      cases haction
      exact ⟨_, List.mem_cons_of_mem _ (List.mem_singleton_self _), rfl, rfl, rfl⟩

theorem execute_ran (env : Environment) (sender : Sender) (jobId : ℕ) (db : Database) :
    Ran db (executeCronJob env sender jobId db).1 := by
  unfold executeCronJob
  split
  · exact .refl db
  · unfold runCronJob
    dsimp only
    split
    · exact .refl db
    · exact run_ran env _ db

theorem runScheduledCronJob_ran (env : Environment) (jobId : ℕ) (job : CronJob) (db : Database) :
    Ran db (runScheduledCronJob env jobId job db).1 := by
  unfold runScheduledCronJob
  split
  · exact .refl db
  · exact run_ran env _ db

theorem runScheduledJob_ran (env : Environment) (jobId : ℕ) (db : Database) :
    Ran db (runScheduledJob env jobId db) := by
  unfold runScheduledJob
  cases hjob : db.liveJob jobId with
  | none => exact .refl db
  | some job =>
    dsimp only
    split_ifs
    · exact .refl db
    · exact (Ran.refl db).record _ _
    · have hran := runScheduledCronJob_ran env jobId job db
      cases hrun : runScheduledCronJob env jobId job db with | mk db' outcome =>
      rw [hrun] at hran
      cases outcome with
      | ok id => exact hran
      | error e =>
        dsimp only
        unfold recordFailure
        cases skipReason e with
        | none => exact hran
        | some reason => exact hran.record _ _

end Runs

section AccountChanges

variable {bcrypt settings} {r : Request} {call : Call} {db db' t : Database} {id : ℕ}

theorem accounted_user (id : ℕ) (user : User) {entries : List AuditLog}
    (happends : Appends db t entries)
    (hsame : SameRows { db with users := db.users.set id user } t)
    (h : UserTold r entries id (db.users.get? id) (some user)) : Accounted r db t := by
  obtain ⟨husers, hjobs, hscripts, hexecutions, htokens⟩ := hsame
  refine accounted_of happends ?_ ?_ ?_ ?_ ?_
  · rw [husers]
    exact Table.related_set (userTold_refl r _) h
  · exact Table.related_of_eq (jobTold_refl _) hjobs
  · exact Table.related_of_eq (scriptTold_refl _) hscripts
  · exact Table.related_of_eq (executionTold_refl _) hexecutions
  · exact Table.related_of_eq (fun _ ↦ tokenTold_refl _) htokens

theorem createUser_accounted {salt : Text} {body : UserCreate Role}
    (h : Services.Users.createUser bcrypt settings call salt body db = .ok (id, db')) :
    Accounted r db db' := by
  obtain ⟨hashed, role, -, -, rfl, rfl⟩ := createUser_eq_ok h
  refine accounted_user _ _ (appends_event _ _ _) ⟨rfl, rfl, rfl, rfl, rfl⟩ ?_
  rw [Table.get?_nextId]
  exact ⟨_, List.mem_singleton_self _, rfl, rfl, rfl⟩

theorem told_userEntry {entries kept : List AuditLog} {action : AuditAction}
    {details : List (Text × Json)} (h : withoutRevocations entries = kept)
    (hmem : userEntry call action id details ∈ kept) : Told entries action "user".toList id :=
  ⟨_, List.mem_of_mem_filter (h ▸ hmem), rfl, rfl, rfl⟩

/-- Each changed aspect of an account has its own entry. -/
theorem updated_told {salt : Text} {body : UserUpdate Role} {old new : User}
    {entries : List AuditLog}
    (h : Updated bcrypt settings call salt id body old new db db')
    (hentries : withoutRevocations entries =
      activeEntries call id body.isActive old ++ roleEntries call id body.role old ++
        emailEntries call id body.email old ++ passwordEntries call id body.password)
    (hr : ∀ entries id, Told entries .passwordReset "user".toList id → PasswordTold r entries id) :
    UserTold r entries id (some old) (some new) := by
  have hrow := h.row
  have hpassword := h.password
  refine ⟨?_, ?_, ?_, ?_, ?_⟩
  · rw [hrow]
    intro hne
    exact told_userEntry hentries (List.mem_append_left _ (List.mem_append_left _
      (List.mem_append_left _ (mem_activeEntries hne))))
  · rw [hrow]
    intro hne
    obtain ⟨details, hmem⟩ := mem_roleEntries hne
    exact told_userEntry hentries (List.mem_append_left _ (List.mem_append_left _
      (List.mem_append_right _ hmem)))
  · rw [hrow]
    intro hne
    obtain ⟨details, hmem⟩ := mem_emailEntries hne
    exact told_userEntry hentries (List.mem_append_left _ (List.mem_append_right _ hmem))
  · intro hne
    apply hr
    cases hbody : body.password with
    | none =>
      rw [hbody] at hpassword
      exact absurd hpassword hne
    | some password =>
      rw [hbody] at hentries
      exact told_userEntry hentries (List.mem_append_right _ (List.mem_singleton_self _))
  · rw [hrow]
    exact absurd rfl

theorem updateUser_accounted {salt : Text} {body : UserUpdate Role}
    (hr : ∀ entries id, Told entries .passwordReset "user".toList id → PasswordTold r entries id)
    (h : Services.Users.updateUser bcrypt settings call salt id body db = .ok db') :
    Accounted r db db' := by
  obtain ⟨old, new, hold, hupdated⟩ := updateUser_updated h
  obtain ⟨entries, hedited, hentries⟩ := hupdated.edited
  refine accounted_user id new hedited.entries ?_ ?_
  · exact ⟨hedited.users hold, hedited.cronJobs, hedited.scripts, hedited.executions,
      hedited.revokedTokens⟩
  · rw [hold]
    exact updated_told hupdated hentries hr

theorem deleteUser_accounted (h : Services.Users.deleteUser call id db = .ok db') :
    Accounted r db db' := by
  obtain ⟨user, huser, -, -, rfl⟩ := deleteUser_eq_ok h
  refine accounted_of (appends_event _ _ _) ?_ (fun id ↦ jobTold_refl _ id _) ?_
    (fun id ↦ executionTold_refl _ id _) fun id ↦ tokenTold_refl _ _
  · intro j
    change UserTold r _ j (db.users.get? j) ((db.users.erase id).get? j)
    rw [Table.get?_erase]
    split_ifs with hj
    · rw [hj, huser]
      exact ⟨_, List.mem_singleton_self _, rfl, rfl, rfl⟩
    · exact userTold_refl r _ j _
  · intro j
    change ScriptTold _ j (db.scripts.get? j) ((db.scripts.map _).get? j)
    rw [Table.get?_map]
    cases db.scripts.get? j with
    | none => trivial
    | some script =>
      rw [Option.map_some]
      split_ifs
      · refine ⟨?_, absurd rfl, absurd rfl⟩
        intro hne
        simp only [ne_eq, not_true, or_self] at hne
      · exact scriptTold_refl _ j (some script)

/-- A login that is accepted has its entry already. -/
theorem authenticateUser_found {now : Instant} {ipAddress : Option Text} {username password : Text}
    {user : User}
    (h : authenticateUser bcrypt now ipAddress username password db = (db', some (id, user))) :
    db.users.get? id = some user ∧ ∃ event, db' = recordEvent now event db ∧
      event.action = .loginSuccess ∧ event.userId = some id := by
  unfold authenticateUser at h
  cases hfound : db.userByUsername username with
  | none =>
    rw [hfound] at h
    cases h
  | some found =>
    obtain ⟨id', user'⟩ := found
    rw [hfound] at h
    dsimp only at h
    split_ifs at h
    · cases h
    · cases h
    · cases h
      exact ⟨userByUsername_get? hfound, _, rfl, rfl, rfl⟩

theorem authenticateUser_accounted (bcrypt : Bcrypt) (now : Instant) (ipAddress : Option Text)
    (username password : Text) (db : Database) :
    Accounted r db (authenticateUser bcrypt now ipAddress username password db).1 := by
  unfold authenticateUser
  cases db.userByUsername username with
  | none => exact SameRows.accounted ⟨rfl, rfl, rfl, rfl, rfl⟩
  | some found =>
    dsimp only
    split_ifs <;> exact SameRows.accounted ⟨rfl, rfl, rfl, rfl, rfl⟩

theorem login_accounted (bcrypt : Bcrypt) (settings : Settings) (now : Instant)
    (ipAddress : Option Text) (jti username password : Text) (db : Database) :
    Accounted r db (Api.Accounts.login bcrypt settings now ipAddress jti username password db).1 := by
  have hauth :
      Accounted r db _ := authenticateUser_accounted bcrypt now ipAddress username password db
  unfold Api.Accounts.login
  cases hfound : authenticateUser bcrypt now ipAddress username password db with | mk db₁ found =>
  rw [hfound] at hauth
  cases found with
  | none => exact hauth
  | some found =>
    obtain ⟨id, user⟩ := found
    obtain ⟨hget, event, rfl, haction, huser⟩ := authenticateUser_found hfound
    refine accounted_user id _ (appends_event now event db) ⟨rfl, rfl, rfl, rfl, rfl⟩ ?_
    rw [hget]
    refine ⟨absurd rfl, absurd rfl, absurd rfl, absurd rfl, ?_⟩
    intro _
    exact ⟨_, List.mem_singleton_self _, haction, huser⟩

theorem loggedOut_accounted (call : Call) (payload : Payload) (db : Database) :
    Accounted r db (Api.Transactions.loggedOut call payload db) := by
  unfold Api.Transactions.loggedOut
  split_ifs
  · refine accounted_of (appends_event _ _ _) (fun id ↦ userTold_refl r _ id _)
      (fun id ↦ jobTold_refl _ id _) (fun id ↦ scriptTold_refl _ id _)
      (fun id ↦ executionTold_refl _ id _) ?_
    apply Table.related_set fun _ ↦ tokenTold_refl _
    rw [Table.get?_nextId]
    exact ⟨_, List.mem_singleton_self _, rfl, rfl⟩
  · exact SameRows.accounted ⟨rfl, rfl, rfl, rfl, rfl⟩

theorem purgeExpired_accounted (now : Instant) (h : Accounted r db t) :
    Accounted r db (t.purgeExpired now) := by
  refine ⟨h.users, h.jobs, h.scripts, h.executions, ?_⟩
  intro id
  have htold := h.tokens id
  change TokenTold (newEntries db t) _ ((t.revokedTokens.filter _).get? id)
  rw [Table.get?_filter]
  cases ht : t.revokedTokens.get? id with
  | none => cases db.revokedTokens.get? id <;> trivial
  | some token =>
    rw [ht] at htold
    rw [Option.filter_some]
    split_ifs
    · exact htold
    · cases db.revokedTokens.get? id <;> trivial

variable {bearer : Bearer} {salt : Text} {body : ChangePasswordRequest} {user : User}

/-- A password that is saved with the end of the sessions is told of there only if it is the same. -/
theorem revoked_accounted_iff (now : Instant) (hget : db.users.get? id = some user)
    (hashed : Text) :
    Accounted (.account (.changePassword bearer salt body)) db
      (revokeAllTokensForUser now id { user with hashedPassword := hashed } db).2 ↔
      hashed = user.hashedPassword := by
  have happends :
      Appends db (revokeAllTokensForUser now id { user with hashedPassword := hashed } db).2
    [revokedEntry now id { user with hashedPassword := hashed }] := appends_event _ _ _
  constructor
  · intro h
    have htold := h.users id
    change UserTold _ _ id _ ((db.users.set id _).get? id) at htold
    rw [hget, Table.get?_set_self, happends.newEntries] at htold
    obtain ⟨-, -, -, hpassword, -⟩ := htold
    by_contra hne
    obtain ⟨entry, hmem, haction, -⟩ := hpassword hne
    rw [List.mem_singleton.mp hmem] at haction
    cases haction
  · intro h
    refine accounted_user id _ happends ⟨rfl, rfl, rfl, rfl, rfl⟩ ?_
    rw [hget, h]
    exact ⟨absurd rfl, absurd rfl, absurd rfl, absurd rfl, absurd rfl⟩

theorem changePassword_accounted {call : Call} {current new : Text}
    (hget : db.users.get? call.actor.id = some call.actor.user) :
    Accounted (.account (.changePassword bearer salt body)) db
      (Services.Auth.changePassword bcrypt settings call salt current new db).1 := by
  unfold Services.Auth.changePassword
  dsimp only
  split_ifs
  · exact SameRows.accounted ⟨rfl, rfl, rfl, rfl, rfl⟩
  · cases enforcePasswordPolicy settings.passwordMinLength new call.actor.user.username with
    | error violations => exact SameRows.accounted ⟨rfl, rfl, rfl, rfl, rfl⟩
    | ok u =>
      dsimp only
      cases hashPassword bcrypt salt new with
      | error message => exact SameRows.accounted ⟨rfl, rfl, rfl, rfl, rfl⟩
      | ok hashed =>
        refine accounted_user call.actor.id _
          ((appends_event call.now _ _).trans (appends_event call.now _ _))
            ⟨rfl, rfl, rfl, rfl, rfl⟩ ?_
        rw [hget]
        refine ⟨absurd rfl, absurd rfl, absurd rfl, ?_, absurd rfl⟩
        intro _
        exact ⟨_, List.mem_cons_of_mem _ (List.mem_singleton_self _), rfl, rfl⟩

end AccountChanges

section Requests

variable {bcrypt settings} {db t : Database}

/-- The request changes the password of its sender. -/
def SavesPassword (bcrypt : Bcrypt) (settings : Settings) (db : Database) : Request → Prop
  | .account (.changePassword bearer salt body) => ∃ call checked hashed,
    authenticated bearer db = .ok call ∧ checkBody body.validate = .ok checked ∧
      Services.Transactions.Saves bcrypt settings call salt checked.currentPassword checked.newPassword
        hashed ∧
      hashed ≠ call.actor.user.hashedPassword
  | _ => False

theorem commits_accounted {r : Request} {p : Procedure Database HttpError Unit}
    {f : Database → Except HttpError Database} (h : Commits (Prod.mk ()) p f)
    (hf : ∀ db', f db = .ok db' → Accounted r db db') (ht : p.Durable (.opened db) t) :
    Accounted r db t := by
  rcases h.durable ht with rfl | ⟨db', hdb', ht⟩
  · exact SameRows.accounted ⟨rfl, rfl, rfl, rfl, rfl⟩
  · rw [ht]
    exact hf db' hdb'

theorem account_accounted {r : AccountRequest}
    (hno : ¬SavesPassword bcrypt settings db (.account r))
    (ht : (Request.procedure bcrypt settings (.account r)).Durable (.opened db) t) :
    Accounted (.account r) db t := by
  have hsame : Accounted (.account r) db db := SameRows.accounted ⟨rfl, rfl, rfl, rfl, rfl⟩
  cases r with
  | login now ipAddress jti username password =>
    rcases Api.Transactions.login_durable (durable_bind_pure.mp ht) with rfl | rfl | rfl
    · exact hsame
    · exact authenticateUser_accounted bcrypt now ipAddress username password db
    · exact login_accounted bcrypt settings now ipAddress jti username password db
  | logout bearer =>
    rcases Api.Transactions.logout_durable ht with rfl | ⟨call, -, rfl | rfl⟩
    · exact hsame
    · exact loggedOut_accounted call bearer.token db
    · exact purgeExpired_accounted call.now (loggedOut_accounted call bearer.token db)
  | changePassword bearer salt body =>
    rcases Api.Transactions.changePassword_durable ht with
      rfl | rfl | ⟨call, checked, hashed, hcall, hbody, hsaves, rfl⟩
    · exact hsame
    · unfold Api.Accounts.changePassword
      cases hcall : authenticated bearer db with
      | error e => exact hsame
      | ok call =>
        cases checkBody body.validate with
        | error e => exact hsame
        | ok checked => exact changePassword_accounted (authenticated_user hcall).1
    · rw [revoked_accounted_iff call.now (authenticated_user hcall).1 hashed]
      by_contra hne
      exact hno ⟨call, checked, hashed, hcall, hbody, hsaves, hne⟩
  | createUser bearer salt body =>
    refine commits_accounted (Api.Transactions.createUser_commits bcrypt settings bearer salt body) ?_ ht
    intro db' h
    obtain ⟨⟨id, db₁⟩, hcreate, rfl⟩ := map_eq_ok.mp h
    obtain ⟨call, -, hcreate⟩ := bind_eq_ok.mp hcreate
    obtain ⟨checked, -, hcreate⟩ := bind_eq_ok.mp hcreate
    exact createUser_accounted (mapError_eq_ok.mp hcreate)
  | updateUser bearer salt id body =>
    refine commits_accounted (Api.Transactions.updateUser_commits bcrypt settings bearer salt id body) ?_ ht
    intro db' h
    obtain ⟨call, -, h⟩ := bind_eq_ok.mp h
    obtain ⟨checked, -, h⟩ := bind_eq_ok.mp h
    exact updateUser_accounted (fun _ _ htold ↦ htold) (mapError_eq_ok.mp h)
  | deleteUser bearer id =>
    refine commits_accounted (Api.Transactions.deleteUser_commits bcrypt settings bearer id) ?_ ht
    intro db' h
    obtain ⟨call, -, h⟩ := bind_eq_ok.mp h
    exact deleteUser_accounted (mapError_eq_ok.mp h)

/-- Wherever a request stops, what the store contains of its changes is told by the trail there,
exactly when the request does not change the password of its sender. -/
theorem durable_accounted_iff (bcrypt : Bcrypt) (settings : Settings) (db : Database)
    (r : Request) :
    (∀ t, (Request.procedure bcrypt settings r).Durable (.opened db) t → Accounted r db t) ↔
      ¬SavesPassword bcrypt settings db r := by
  constructor
  · intro h hsaves
    cases r with
    | edit op => exact hsaves
    | execute env sender jobId => exact hsaves
    | fire env jobId => exact hsaves
    | account r =>
      cases r with
      | changePassword bearer salt body =>
        obtain ⟨call, checked, hashed, hcall, hbody, hsaved, hne⟩ := hsaves
        have haccounted := h _ (Api.Transactions.changePassword_saved hcall hbody hsaved)
        exact hne ((revoked_accounted_iff call.now (authenticated_user hcall).1 hashed).mp haccounted)
      | _ => exact hsaves
  · intro hno t ht
    cases r with
    | account r => exact account_accounted hno ht
    | edit op =>
      refine commits_accounted (Api.Transactions.edit_commits op) ?_ ht
      intro db' h
      obtain ⟨⟨db₁, n⟩, hcommit, rfl⟩ := map_eq_ok.mp h
      exact commit_accounted hcommit
    | execute env sender jobId =>
      rcases Api.Transactions.executeCronJob_durable (durable_bind_pure.mp ht) with
        rfl | ⟨call, running, hs⟩ | rfl
      · exact (Ran.refl _).accounted
      · exact (startRun_ran hs).accounted
      · exact (execute_ran env sender jobId db).accounted
    | fire env jobId =>
      rcases Services.Transactions.runScheduledJob_durable ht with
        rfl | ⟨call, running, hs⟩ | ⟨job, rfl⟩ | rfl
      · exact (Ran.refl _).accounted
      · exact (startRun_ran hs).accounted
      · exact (runScheduledCronJob_ran env jobId job db).accounted
      · exact (runScheduledJob_ran env jobId db).accounted

end Requests

section Sample

def sampleAdmin : User :=
  { username := "admin".toList
    email := "admin@example.com".toList
    hashedPassword := Sessions.Machine.sampleSalt ++ "Cronograma2024".toList
    isActive := true
    role := .admin
    createdAt := 0
    updatedAt := 0
    lastLoginAt := none
    tokensInvalidBefore := none }

def sample : Database := { Database.seeded with users := Table.empty.set 1 sampleAdmin }

def sampleBearer : Bearer where
  token := createAccessToken ⟨60, 10⟩ 0 ['t'] 1 sampleAdmin.username sampleAdmin.role.name
  now := 0
  ipAddress := none

def sampleBody : ChangePasswordRequest := ⟨"Cronograma2024".toList, "Planificador25".toList⟩

/-- The new password can be found in the store without the entry for it. -/
theorem change_password_untold :
    ¬∀ t, (Request.procedure Sessions.Machine.sampleBcrypt ⟨60, 10⟩
        (.account (.changePassword sampleBearer Sessions.Machine.sampleSalt sampleBody))).Durable
          (.opened sample) t →
      Accounted (.account (.changePassword sampleBearer Sessions.Machine.sampleSalt sampleBody))
        sample t := by
  intro h
  have hcall : authenticated sampleBearer sample = .ok ⟨⟨1, sampleAdmin⟩, 0, none⟩ := rfl
  have hbody : checkBody sampleBody.validate = .ok sampleBody := rfl
  have hsaves : Services.Transactions.Saves Sessions.Machine.sampleBcrypt ⟨60, 10⟩
      ⟨⟨1, sampleAdmin⟩, 0, none⟩ Sessions.Machine.sampleSalt sampleBody.currentPassword
      sampleBody.newPassword (Sessions.Machine.sampleSalt ++ sampleBody.newPassword) :=
    ⟨by decide, by decide, rfl⟩
  have htold := h _ (Api.Transactions.changePassword_saved hcall hbody hsaves)
  have hsame := (revoked_accounted_iff 0 (authenticated_user hcall).1 _).mp htold
  exact absurd hsame (by decide)

end Sample

end CronPanel.Access.Durability
