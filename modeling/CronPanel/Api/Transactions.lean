import CronPanel.Api.Executions
import CronPanel.Api.Operations
import CronPanel.Api.Requests
import CronPanel.Services.Transactions

namespace CronPanel.Api.Transactions

open Library.Strings Library.Tables Library.Fallible Library.Transactions Library.Transactions.Procedure
open Core.Permissions Core.Security Data.Records Data.Repositories Schemas.Bodies Schemas.Accounts
open Execution.Policy Services.Audit Services.CronJobs Services.Auth Services.Executions
open Errors Accounts Operations Requests Executions

/-- The steps of a request that edits a job or a script. -/
def Operation.procedure : Operation → Procedure Database HttpError Unit
  | .createCronJob sender body => do
    let db ← current
    let call ← check (requirePermission db sender .cronJobsCreate)
    let body ← check (checkBody body.validate)
    let _ ← (Services.Transactions.createCronJob call body).mapError ofCronJobError
    return
  | .updateCronJob sender id body => do
    let db ← current
    let call ← check (requirePermission db sender .cronJobsUpdate)
    let body ← check (checkBody body.validate)
    (Services.Transactions.updateCronJob call id body).mapError ofCronJobError
  | .updateCronJobStatus sender id isActive => do
    let db ← current
    let call ← check (requirePermission db sender .cronJobsEnable)
    (Services.Transactions.updateCronJobStatus call id isActive).mapError ofCronJobError
  | .deleteCronJob sender id => do
    let db ← current
    let call ← check (requirePermission db sender .cronJobsDelete)
    (Services.Transactions.deleteCronJob call id).mapError ofCronJobError
  | .createScript sender host body => do
    let db ← current
    let call ← check (requirePermission db sender .scriptsCreate)
    let body ← check (checkBody body.validate)
    let _ ← (Services.Transactions.createScript call host body).mapError ofScriptError
    return
  | .updateScript sender host id body => do
    let db ← current
    let call ← check (requirePermission db sender .scriptsUpdate)
    let body ← check (checkBody body.validate)
    (Services.Transactions.updateScript call host id body).mapError ofScriptError
  | .deleteScript sender id => do
    let db ← current
    let call ← check (requirePermission db sender .scriptsDelete)
    (Services.Transactions.deleteScript call id).mapError ofScriptError

theorem commits_notified {ρ : Type} {out : ρ → Unit × Database}
    {notify : ρ → Database × Notification}
    {p : Procedure Database HttpError Unit} {f : Database → Except HttpError ρ}
    (h : Commits out p f) (hout : ∀ r, (notify r).1 = (out r).2) :
    Commits (Prod.mk ()) p fun db ↦ Prod.fst <$> (f db >>= fun r ↦ .ok (notify r)) := by
  refine h.congr fun db ↦ ?_
  cases f db with
  | error e => rfl
  | ok r =>
    change Except.ok ((), (notify r).1) = Except.ok (out r)
    rw [hout]

/-- An edit is one transaction, that of its service. -/
theorem edit_commits (op : Operation) :
    Commits (Prod.mk ()) (Operation.procedure op) fun db ↦ Prod.fst <$> op.commit db := by
  cases op with
  | createCronJob sender body =>
    have h : Commits (fun r ↦ ((), r.2)) (Operation.procedure (.createCronJob sender body))
        (CronJobs.createCronJob sender body) :=
      commits_current fun _ ↦ commits_check fun _ ↦
        ((Services.Transactions.createCronJob_commits _).mapError).bind_pure fun _ ↦ ()
    exact commits_notified h fun _ ↦ rfl
  | updateCronJob sender id body =>
    have h : Commits (Prod.mk ()) (Operation.procedure (.updateCronJob sender id body))
        (CronJobs.updateCronJob sender id body) :=
      commits_current fun _ ↦ commits_check fun _ ↦
        (Services.Transactions.updateCronJob_commits id _).mapError
    exact commits_notified h fun _ ↦ rfl
  | updateCronJobStatus sender id isActive =>
    have h : Commits (Prod.mk ()) (Operation.procedure (.updateCronJobStatus sender id isActive))
        (CronJobs.updateCronJobStatus sender id isActive) :=
      commits_current fun _ ↦ (Services.Transactions.updateCronJobStatus_commits id isActive).mapError
    exact commits_notified h fun _ ↦ rfl
  | deleteCronJob sender id =>
    have h : Commits (Prod.mk ()) (Operation.procedure (.deleteCronJob sender id))
        (CronJobs.deleteCronJob sender id) :=
      commits_current fun _ ↦ (Services.Transactions.deleteCronJob_commits id).mapError
    exact commits_notified h fun _ ↦ rfl
  | createScript sender host body =>
    have h : Commits (fun r ↦ ((), r.2)) (Operation.procedure (.createScript sender host body))
        (Operations.createScript sender host body) :=
      commits_current fun _ ↦ commits_check fun _ ↦
        ((Services.Transactions.createScript_commits host _).mapError).bind_pure fun _ ↦ ()
    exact commits_notified h fun _ ↦ rfl
  | updateScript sender host id body =>
    have h : Commits (Prod.mk ()) (Operation.procedure (.updateScript sender host id body))
        (Operations.updateScript sender host id body) :=
      commits_current fun _ ↦ commits_check fun _ ↦
        (Services.Transactions.updateScript_commits host id _).mapError
    exact commits_notified h fun _ ↦ rfl
  | deleteScript sender id =>
    have h : Commits (Prod.mk ()) (Operation.procedure (.deleteScript sender id))
        (Operations.deleteScript sender id) :=
      commits_current fun _ ↦ (Services.Transactions.deleteScript_commits id).mapError
    exact commits_notified h fun _ ↦ rfl

section Accounts

variable (bcrypt : Bcrypt) (settings : Settings)

def login (now : Instant) (ipAddress : Option Text) (jti username password : Text) :
    Procedure Database HttpError Payload := do
  let found ← Services.Transactions.authenticateUser bcrypt now ipAddress username password
  match found with
  | none => check (.error invalidCredentials)
  | some (id, user) =>
    let user := { user with lastLoginAt := some now, updatedAt := now }
    write fun db ↦ { db with users := db.users.set id user }
    commit
    return issueAccessToken settings now jti id user

/-- The purge of the expired tokens is a transaction of its own. -/
def logout (bearer : Bearer) : Procedure Database HttpError Unit := do
  let db ← current
  let call ← check (authenticated bearer db)
  let payload := bearer.token
  if payload.jti ≠ [] ∧ payload.exp ≠ 0 then
    Services.Transactions.add (fun db ↦
      { db with revokedTokens := (db.revokedTokens.insert
                  { jti := payload.jti
                    userId := some call.actor.id
                    revokedAt := call.now
                    expiresAt := ensureUtc payload.exp }).2 }) false
  Services.Transactions.add (recordEvent call.now
    { action := .logout
      userId := some call.actor.id
      username := some call.actor.user.username
      ipAddress := call.ipAddress
      resource := some "session".toList
      resourceId := some payload.jti }) true
  write fun db ↦ db.purgeExpired call.now
  commit

def changePassword (bearer : Bearer) (salt : Text) (body : ChangePasswordRequest) :
    Procedure Database HttpError Unit := do
  let db ← current
  let call ← check (authenticated bearer db)
  let body ← check (checkBody body.validate)
  (Services.Transactions.changePassword bcrypt settings call salt body.currentPassword
    body.newPassword).mapError ofPasswordError

/-- The steps of a request about the accounts. -/
def AccountRequest.procedure : AccountRequest → Procedure Database HttpError Unit
  | .login now ipAddress jti username password => do
    let _ ← login bcrypt settings now ipAddress jti username password
    return
  | .logout bearer => logout bearer
  | .changePassword bearer salt body => changePassword bcrypt settings bearer salt body
  | .createUser bearer salt body => do
    let db ← current
    let call ← check (authorized bearer .usersCreate db)
    let body ← check (checkBody body.validate)
    let _ ← (Services.Transactions.createUser bcrypt settings call salt body).mapError ofCreateError
    return
  | .updateUser bearer salt id body => do
    let db ← current
    let call ← check (authorized bearer .usersUpdate db)
    let body ← check (checkBody body.validate)
    (Services.Transactions.updateUser bcrypt settings call salt id body).mapError ofUpdateError
  | .deleteUser bearer id => do
    let db ← current
    let call ← check (authorized bearer .usersDelete db)
    (Services.Transactions.deleteUser call id).mapError ofDeleteError

theorem createUser_commits (bearer : Bearer) (salt : Text) (body : UserCreate Text) :
    Commits (Prod.mk ()) (AccountRequest.procedure bcrypt settings (.createUser bearer salt body))
      fun db ↦ Prod.snd <$> Accounts.createUser bcrypt settings bearer salt body db := by
  have h : Commits (fun r ↦ ((), r.2))
      (AccountRequest.procedure bcrypt settings (.createUser bearer salt body))
      (Accounts.createUser bcrypt settings bearer salt body) :=
    commits_current fun _ ↦ commits_check fun _ ↦
      ((Services.Transactions.createUser_commits salt _).mapError).bind_pure fun _ ↦ ()
  refine h.congr fun db ↦ ?_
  cases Accounts.createUser bcrypt settings bearer salt body db <;> rfl

theorem updateUser_commits (bearer : Bearer) (salt : Text) (id : ℕ) (body : UserUpdate Text) :
    Commits (Prod.mk ()) (AccountRequest.procedure bcrypt settings (.updateUser bearer salt id body))
      (Accounts.updateUser bcrypt settings bearer salt id body) :=
  commits_current fun _ ↦ commits_check fun _ ↦
    (Services.Transactions.updateUser_commits salt id _).mapError

theorem deleteUser_commits (bearer : Bearer) (id : ℕ) :
    Commits (Prod.mk ()) (AccountRequest.procedure bcrypt settings (.deleteUser bearer id))
      (Accounts.deleteUser bearer id) :=
  commits_current fun _ ↦ (Services.Transactions.deleteUser_commits id).mapError

variable {db t : Database}

theorem login_run (now : Instant) (ipAddress : Option Text) (jti username password : Text)
    (db : Database) : (login bcrypt settings now ipAddress jti username password).run (.opened db) =
      (.opened (Accounts.login bcrypt settings now ipAddress jti username password db).1,
        (Accounts.login bcrypt settings now ipAddress jti username password db).2) := by
  unfold login Accounts.login
  have h : Commits Prod.swap
      (Services.Transactions.authenticateUser bcrypt now ipAddress username password :
        Procedure Database HttpError _) _ :=
    Services.Transactions.authenticateUser_commits now ipAddress username password
  rw [h.run_then rfl]
  cases Services.Auth.authenticateUser bcrypt now ipAddress username password db with | mk db' found =>
  cases found <;> rfl

theorem changePassword_run (bearer : Bearer) (salt : Text) (body : ChangePasswordRequest)
    (db : Database) : (changePassword bcrypt settings bearer salt body).run (.opened db) =
      (.opened (Accounts.changePassword bcrypt settings bearer salt body db).1,
        (Accounts.changePassword bcrypt settings bearer salt body db).2) := by
  unfold changePassword Accounts.changePassword
  rw [run_current]
  cases authenticated bearer db with
  | error e => rfl
  | ok call =>
    cases checkBody body.validate with
    | error e => rfl
    | ok body =>
      change (mapError ofPasswordError (Services.Transactions.changePassword bcrypt settings call salt
        body.currentPassword body.newPassword)).run _ = _
      rw [run_mapError, Services.Transactions.changePassword_run]

variable {bcrypt settings}

/-- The entry of a login is committed before the moment of the login. -/
theorem login_durable {now : Instant} {ipAddress : Option Text} {jti username password : Text}
    (h : (login bcrypt settings now ipAddress jti username password).Durable (.opened db) t) :
    t = db ∨ t = (authenticateUser bcrypt now ipAddress username password db).1 ∨
      t = (Accounts.login bcrypt settings now ipAddress jti username password db).1 := by
  have hauth : Commits Prod.swap
      (Services.Transactions.authenticateUser bcrypt now ipAddress username password :
        Procedure Database HttpError _) _ :=
    Services.Transactions.authenticateUser_commits now ipAddress username password
  unfold Accounts.login
  rcases hauth.durable_then h with h | ⟨r, hr, h⟩
  · exact .inl h
  · right
    cases hr
    cases hfound : authenticateUser bcrypt now ipAddress username password db with | mk db' found =>
    rw [hfound] at h
    cases found with
    | none => exact .inl (durable_done.mp h)
    | some found =>
      rcases durable_committing.mp (durable_writing.mp h) with h | h
      · exact .inl h
      · exact .inr (durable_done.mp h)

/-- The password is saved by its own transaction, before its entry. -/
theorem changePassword_durable {bearer : Bearer} {salt : Text} {body : ChangePasswordRequest}
    (h : (changePassword bcrypt settings bearer salt body).Durable (.opened db) t) :
    t = db ∨ t = (Accounts.changePassword bcrypt settings bearer salt body db).1 ∨
      ∃ call checked hashed, authenticated bearer db = .ok call ∧
        checkBody body.validate = .ok checked ∧
        Services.Transactions.Saves bcrypt settings call salt checked.currentPassword
          checked.newPassword hashed ∧
        t = (revokeAllTokensForUser call.now call.actor.id
          { call.actor.user with hashedPassword := hashed } db).2 := by
  unfold Accounts.changePassword
  unfold changePassword at h
  rw [durable_current] at h
  cases hcall : authenticated bearer db with
  | error e =>
    rw [hcall] at h
    exact .inl (durable_done.mp h)
  | ok call =>
    rw [hcall] at h
    cases hbody : checkBody body.validate with
    | error e =>
      rw [hbody] at h
      exact .inl (durable_done.mp h)
    | ok checked =>
      rw [hbody] at h
      rcases Services.Transactions.changePassword_durable (durable_mapError.mp h) with
        h | h | ⟨hashed, hsaves, h⟩
      · exact .inl h
      · exact .inr (.inl h)
      · exact .inr (.inr ⟨call, checked, hashed, rfl, rfl, hsaves, h⟩)

theorem changePassword_saved {bearer : Bearer} {salt : Text} {body checked : ChangePasswordRequest}
    {call : Call} {hashed : Text} (hcall : authenticated bearer db = .ok call)
    (hbody : checkBody body.validate = .ok checked)
    (h : Services.Transactions.Saves bcrypt settings call salt checked.currentPassword
      checked.newPassword hashed) :
    (changePassword bcrypt settings bearer salt body).Durable (.opened db)
      (revokeAllTokensForUser call.now call.actor.id
        { call.actor.user with hashedPassword := hashed } db).2 := by
  unfold changePassword
  rw [durable_current, hcall]
  change (check (checkBody body.validate) >>= _).Durable _ _
  rw [hbody]
  change (mapError ofPasswordError (Services.Transactions.changePassword bcrypt settings call salt
    checked.currentPassword checked.newPassword)).Durable _ _
  rw [durable_mapError, Services.Transactions.changePassword_saves h, durable_bind]
  exact .inl (durable_run _ _)

/-- What the first transaction of a logout leaves. -/
def loggedOut (call : Call) (payload : Payload) (db : Database) : Database :=
  recordEvent call.now
    { action := .logout
      userId := some call.actor.id
      username := some call.actor.user.username
      ipAddress := call.ipAddress
      resource := some "session".toList
      resourceId := some payload.jti }
    (if payload.jti ≠ [] ∧ payload.exp ≠ 0 then
      { db with revokedTokens := (db.revokedTokens.insert
                  { jti := payload.jti
                    userId := some call.actor.id
                    revokedAt := call.now
                    expiresAt := ensureUtc payload.exp }).2 }
    else db)

theorem logout_of_call {bearer : Bearer} {call : Call} (h : authenticated bearer db = .ok call) :
    Accounts.logout bearer db = .ok ((loggedOut call bearer.token db).purgeExpired call.now) := by
  unfold Accounts.logout
  rw [h]
  rfl

theorem logout_run (bearer : Bearer) (db : Database) :
    (logout bearer).run (.opened db) = match Accounts.logout bearer db with
      | .ok db' => (.opened db', .ok ())
      | .error e => (.opened db, .error e) := by
  unfold logout
  rw [run_current]
  cases hcall : authenticated bearer db with
  | error e =>
    unfold Accounts.logout
    rw [hcall]
    rfl
  | ok call =>
    rw [logout_of_call hcall]
    unfold loggedOut
    change (if _ then _ else _ : Procedure Database HttpError Unit).run _ = _
    split_ifs <;> rfl

theorem logout_durable {bearer : Bearer} (h : (logout bearer).Durable (.opened db) t) :
    t = db ∨ ∃ call, authenticated bearer db = .ok call ∧ (t = loggedOut call bearer.token db ∨
      t = (loggedOut call bearer.token db).purgeExpired call.now) := by
  unfold logout at h
  rw [durable_current] at h
  cases hcall : authenticated bearer db with
  | error e =>
    rw [hcall] at h
    exact .inl (durable_done.mp h)
  | ok call =>
    rw [hcall] at h
    unfold loggedOut
    change (if _ then _ else _ : Procedure Database HttpError Unit).Durable _ _ at h
    split_ifs at h ⊢
    · rcases durable_committing.mp (durable_writing.mp (durable_writing.mp h)) with h | h
      · exact .inl h
      · rcases durable_committing.mp (durable_writing.mp h) with h | h
        · exact .inr ⟨call, rfl, .inl h⟩
        · exact .inr ⟨call, rfl, .inr (durable_done.mp h)⟩
    · rcases durable_committing.mp (durable_writing.mp h) with h | h
      · exact .inl h
      · rcases durable_committing.mp (durable_writing.mp h) with h | h
        · exact .inr ⟨call, rfl, .inl h⟩
        · exact .inr ⟨call, rfl, .inr (durable_done.mp h)⟩

end Accounts

section Executions

variable {db t : Database}

def executeCronJob (env : Environment) (sender : Sender) (jobId : ℕ) :
    Procedure Database HttpError ℕ := do
  let db ← current
  let call ← check (requirePermission db sender .executionsExecute)
  (Services.Transactions.runCronJob env call jobId).mapError ofExecutionError

theorem executeCronJob_run (env : Environment) (sender : Sender) (jobId : ℕ) (db : Database) :
    (executeCronJob env sender jobId).run (.opened db) =
      (.opened (Executions.executeCronJob env sender jobId db).1,
        (Executions.executeCronJob env sender jobId db).2) := by
  unfold executeCronJob Executions.executeCronJob
  rw [run_current]
  cases requirePermission db sender .executionsExecute with
  | error e => rfl
  | ok call =>
    change (mapError ofExecutionError (Services.Transactions.runCronJob env call jobId)).run _ = _
    rw [run_mapError, Services.Transactions.runCronJob_run]

theorem executeCronJob_durable {env : Environment} {sender : Sender} {jobId : ℕ}
    (h : (executeCronJob env sender jobId).Durable (.opened db) t) :
    t = db ∨ (∃ call running, startRun env call db = .ok (running, t)) ∨
      t = (Executions.executeCronJob env sender jobId db).1 := by
  unfold Executions.executeCronJob
  unfold executeCronJob at h
  rw [durable_current] at h
  cases hcall : requirePermission db sender .executionsExecute with
  | error e =>
    rw [hcall] at h
    exact .inl (durable_done.mp h)
  | ok call =>
    rw [hcall] at h
    exact Services.Transactions.runCronJob_durable (durable_mapError.mp h)

end Executions

end CronPanel.Api.Transactions
