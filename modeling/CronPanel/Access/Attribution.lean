import CronPanel.Access.Administrators
import CronPanel.Access.Owners
import CronPanel.Sessions.Edits

namespace CronPanel.Access.Attribution

open Library.Strings Library.JsonData Library.Tables Library.Fallible Library.Run
open Core.Permissions Core.PasswordPolicy Core.Security Data.Records Data.Repositories
open Schemas.Bodies Schemas.Accounts Services.Audit Services.CronJobs Services.Auth Services.Users
open Services.Scripts Services.Executions Services.Trail Scheduler.Jobs Api.Errors Api.Accounts
open Api.Operations Api.Executions Api.Frames Api.Requests Sessions.Changes Sessions.Edits
open Owners Panel Writes
open Administrators (isActiveAdmin countActiveAdmins_le_one)

/-- An entry with the id of an account has the username of that account. -/
def Names (db : Database) (entry : AuditLog) : Prop :=
  ∀ id, entry.userId = some id → ∃ user, db.users.get? id = some user ∧
    entry.username = some user.username

/-- The new entries name the account they have the id of, as it is before or after. -/
def Attributed (db db' : Database) : Prop :=
  ∀ entry ∈ newEntries db db', Names db entry ∨ Names db' entry

/-- The unique constraint on `users.username`. -/
def UniqueNames (db : Database) : Prop := (db.users.rows.map fun r ↦ r.2.username).Nodup

instance (db : Database) : Decidable (UniqueNames db) := inferInstanceAs (Decidable (List.Nodup _))

theorem UniqueNames.eq {db : Database} (h : UniqueNames db) {i j : ℕ} {user user' : User}
    (hi : db.users.get? i = some user) (hj : db.users.get? j = some user')
    (hsame : user.username = user'.username) : i = j :=
  Table.nodup_map_iff.mp h i j user user' hi hj hsame

def trail (db : Database) : List AuditLog := db.auditLogs.rows.map Prod.snd

def Consistent (db : Database) : Prop := ∀ entry ∈ trail db, Names db entry

/-- Of the entries with the id of an account, those with an id are those with its username. -/
def SameSelection (db : Database) : Prop :=
  ∀ id user, db.users.get? id = some user →
    (trail db).filter (fun entry ↦ entry.userId = some id) =
      (trail db).filter fun entry ↦ entry.userId.isSome && entry.username = some user.username

/-- The body asks for something that the account does not have already. -/
def Changes (body : UserUpdate Role) (user : User) : Prop :=
  (∃ isActive, body.isActive = some isActive ∧ isActive ≠ user.isActive) ∨
    (∃ role, body.role = some role ∧ role ≠ user.role) ∨
    (∃ email, body.email = some email ∧ email ≠ user.email) ∨ body.password.isSome

section Conditions

variable (bcrypt : Bcrypt) (settings : Settings)

/-- What `create_user` checks. -/
structure Creatable (salt : Text) (body : UserCreate Role) (db : Database) : Prop where
  username : db.userByUsername body.username = none
  email : db.userByEmail body.email = none
  password : Succeeds (newPassword bcrypt settings salt body.password body.username)
  role : body.role ∈ db.roles

/-- What `update_user` checks of an account that is not the actor's own. -/
structure Updatable (salt : Text) (targetId : ℕ) (body : UserUpdate Role) (user : User)
    (db : Database) : Prop where
  role : ∀ role, body.role = some role → role ≠ user.role → role ∈ db.roles
  email : ∀ email, body.email = some email → email ≠ user.email →
    ∀ existing, db.userByEmail email = some existing → existing.1 = targetId
  password : ∀ password, body.password = some password →
    Succeeds (newPassword bcrypt settings salt password user.username)

/-- A request to create, change or delete the account of another passes all checks, and there is
something to change. -/
def AdministersOther (db : Database) : Request → Prop
  | .account (.createUser bearer salt body) => ∃ call checked,
    authorized bearer .usersCreate db = .ok call ∧ checkBody body.validate = .ok checked ∧
      Creatable bcrypt settings salt checked db
  | .account (.updateUser bearer salt id body) => ∃ call checked user,
    authorized bearer .usersUpdate db = .ok call ∧ checkBody body.validate = .ok checked ∧
      call.actor.id ≠ id ∧ db.users.get? id = some user ∧ Changes checked user ∧
      Updatable bcrypt settings salt id checked user db
  | .account (.deleteUser bearer id) => ∃ call,
    authorized bearer .usersDelete db = .ok call ∧ call.actor.id ≠ id ∧
      (db.users.get? id).isSome ∧ OwnsNothing db id
  | _ => False

end Conditions

/-- An entry with the id and the username of an account. -/
def Signs (id : ℕ) (username : Text) (entry : AuditLog) : Prop :=
  entry.userId = some id ∧ entry.username = some username

section Entries

variable {db db' : Database} {call : Call} {id : ℕ}

theorem Signs.names {user : User} {entry : AuditLog} (h : Signs id user.username entry)
    (hget : db.users.get? id = some user) : Names db entry := by
  intro j hj
  obtain rfl := Option.some.inj (h.1.symm.trans hj)
  exact ⟨user, hget, h.2⟩

theorem names_anonymous {entry : AuditLog} (h : entry.userId = none) : Names db entry := by
  intro j hj
  rw [h] at hj
  cases hj

theorem recordJobEvent_grows (action : AuditAction) (jobId : ℕ) (details : List (Text × Json))
    (hsame : db'.auditLogs = db.auditLogs) :
    Grows (Signs call.actor.id call.actor.user.username) db
      (recordJobEvent call action jobId details db') :=
  (Grows.of_same hsame).trans (grows_event ⟨rfl, rfl⟩ db')

theorem recordScriptEvent_grows (action : AuditAction) (scriptId : ℕ) (details : List (Text × Json))
    (hsame : db'.auditLogs = db.auditLogs) :
    Grows (Signs call.actor.id call.actor.user.username) db
      (recordScriptEvent call action scriptId details db') :=
  (Grows.of_same hsame).trans (grows_event ⟨rfl, rfl⟩ db')

/-- The entries about jobs and scripts are those of their actor. -/
theorem commit_grows {op : Operation} {n : Notification} (h : op.commit db = .ok (db', n)) :
    ∃ call : Call, db.users.get? call.actor.id = some call.actor.user ∧
      Grows (Signs call.actor.id call.actor.user.username) db db' := by
  obtain ⟨call, hperformed⟩ := commit_ok h
  have hactor {sender : Sender} {permission : Permission}
      (hcall : requirePermission db sender permission = .ok call) :
      db.users.get? call.actor.id = some call.actor.user := by
    obtain ⟨user, huser, -, -, rfl⟩ := requirePermission_ok hcall
    exact huser
  refine ⟨call, ?_⟩
  cases op with
  | createCronJob sender body =>
    obtain ⟨hcall, checked, id, hc⟩ := hperformed
    obtain ⟨⟨⟩, -, hc⟩ := bind_eq_ok.mp hc
    obtain ⟨job, -, hc⟩ := bind_eq_ok.mp hc
    cases hc
    exact ⟨hactor hcall, recordJobEvent_grows _ _ _ rfl⟩
  | updateCronJob sender id body =>
    obtain ⟨hcall, checked, hc⟩ := hperformed
    obtain ⟨job, -, hc⟩ := bind_eq_ok.mp hc
    obtain ⟨⟨⟩, -, hc⟩ := bind_eq_ok.mp hc
    obtain ⟨⟨edited, changes⟩, -, hc⟩ := bind_eq_ok.mp hc
    dsimp only at hc
    split_ifs at hc
    · cases hc
      exact ⟨hactor hcall, .of_same rfl⟩
    · cases hc
      exact ⟨hactor hcall, recordJobEvent_grows _ _ _ rfl⟩
  | updateCronJobStatus sender id isActive =>
    obtain ⟨hcall, hc⟩ := hperformed
    obtain ⟨job, -, hc⟩ := bind_eq_ok.mp hc
    split_ifs at hc
    · cases hc
      exact ⟨hactor hcall, .of_same rfl⟩
    all_goals
      cases hc
      exact ⟨hactor hcall, recordJobEvent_grows _ _ _ rfl⟩
  | deleteCronJob sender id =>
    obtain ⟨hcall, hc⟩ := hperformed
    obtain ⟨job, -, hc⟩ := bind_eq_ok.mp hc
    cases hc
    exact ⟨hactor hcall, recordJobEvent_grows _ _ _ rfl⟩
  | createScript sender host body =>
    obtain ⟨hcall, checked, id, hc⟩ := hperformed
    obtain ⟨validated, -, hc⟩ := bind_eq_ok.mp hc
    dsimp only at hc
    split_ifs at hc
    cases hc
    exact ⟨hactor hcall, recordScriptEvent_grows _ _ _ rfl⟩
  | updateScript sender host id body =>
    obtain ⟨hcall, checked, hc⟩ := hperformed
    obtain ⟨script, -, hc⟩ := bind_eq_ok.mp hc
    obtain ⟨⟨edited, changes⟩, -, hc⟩ := bind_eq_ok.mp hc
    dsimp only at hc
    split_ifs at hc
    · cases hc
      exact ⟨hactor hcall, .of_same rfl⟩
    all_goals
      cases hc
      refine ⟨hactor hcall, ?_⟩
      unfold recordScriptUpdate
      dsimp only
      split_ifs
      · exact recordScriptEvent_grows _ _ _ rfl
      · exact (recordScriptEvent_grows _ _ _ rfl).trans (recordScriptEvent_grows _ _ _ rfl)
      · exact (recordScriptEvent_grows _ _ _ rfl).trans (recordScriptEvent_grows _ _ _ rfl)
  | deleteScript sender id =>
    obtain ⟨hcall, hc⟩ := hperformed
    obtain ⟨script, -, hc⟩ := bind_eq_ok.mp hc
    split_ifs at hc
    cases hc
    exact ⟨hactor hcall, recordScriptEvent_grows _ _ _ rfl⟩

theorem run_grows (env : Environment) (call : RunCall) (db : Database) :
    Grows (fun entry ↦ entry.userId = call.actorId ∧ entry.username = call.actorUsername) db
      (run env call db).1 := by
  unfold run
  cases hs : startRun env call db with
  | error e => exact .of_same rfl
  | ok started =>
    obtain ⟨running, db₁⟩ := started
    obtain ⟨resolved, -, -, rfl, rfl⟩ := startRun_eq_ok hs
    have hstarted (t : Database) (hsame : t.auditLogs = db.auditLogs) :
        Grows (fun entry ↦ entry.userId = call.actorId ∧ entry.username = call.actorUsername) db
          (recordEvent env.now (startedEvent call resolved db.executions.nextId) t) :=
      (Grows.of_same hsame).trans (grows_event ⟨rfl, rfl⟩ t)
    dsimp only
    cases hf : finishRun env _ _ with
    | error e => exact hstarted _ rfl
    | ok db₂ =>
      obtain ⟨result, row, job, script, -, -, -, -, rfl⟩ := finishRun_eq_ok hf
      exact (hstarted _ rfl).trans ((Grows.of_same rfl).trans (grows_event ⟨rfl, rfl⟩ _))

theorem execute_grows (env : Environment) (sender : Sender) (jobId : ℕ) (db : Database) :
    Grows (Names db) db (executeCronJob env sender jobId db).1 := by
  unfold executeCronJob
  cases hcall : requirePermission db sender .executionsExecute with
  | error e => exact .of_same rfl
  | ok call =>
    obtain ⟨user, huser, -, -, rfl⟩ := requirePermission_ok hcall
    change Grows _ db (runCronJob env _ jobId db).1
    unfold runCronJob
    cases hmanual : manualCall db _ jobId with
    | error e => exact .of_same rfl
    | ok runCall =>
      obtain ⟨job, -, -, rfl⟩ := manualCall_eq_ok hmanual
      refine (run_grows env _ db).mono ?_
      intro entry hsigns
      exact @Signs.names db sender.userId user entry hsigns huser

theorem recordSkip_grows (now : Instant) (jobId : ℕ) (job : CronJob) (reason : Text)
    (db : Database) :
    Grows (fun entry ↦ entry.userId = none) db (recordSkip now jobId job reason db) :=
  grows_event (P := fun entry ↦ entry.userId = none) rfl db

theorem runScheduledJob_grows (env : Environment) (jobId : ℕ) (db : Database) :
    Grows (fun entry ↦ entry.userId = none) db (runScheduledJob env jobId db) := by
  unfold runScheduledJob
  cases hjob : db.liveJob jobId with
  | none => exact .of_same rfl
  | some job =>
    dsimp only
    split_ifs
    · exact .of_same rfl
    · exact recordSkip_grows _ _ _ _ db
    · unfold runScheduledCronJob
      rw [hjob]
      dsimp only
      have hran : Grows (fun entry ↦ entry.userId = none) db _ :=
        (run_grows env (scheduledCall jobId job) db).mono fun entry h ↦ h.1
      cases hrun : run env (scheduledCall jobId job) db with | mk db' outcome =>
      rw [hrun] at hran
      cases outcome with
      | ok id => exact hran
      | error e =>
        dsimp only
        unfold recordFailure
        cases skipReason e with
        | none => exact hran
        | some reason => exact hran.trans (recordSkip_grows _ _ _ _ _)

end Entries

/-- The new entries name the accounts they have the ids of, and no account comes, goes or gets
another username. -/
structure Settled (db db' : Database) : Prop where
  entries : Grows (Names db) db db'
  names : ∀ id, (db'.users.get? id).map Data.Records.User.username =
    (db.users.get? id).map Data.Records.User.username

section Accounts

variable {bcrypt : Bcrypt} {settings : Settings} {db db' : Database} {call : Call} {id : ℕ}
    {user u₁ : User}

theorem Settled.refl (db : Database) : Settled db db := ⟨.of_same rfl, fun _ ↦ rfl⟩

theorem Settled.of_users (h : Grows (Names db) db db') (husers : db'.users = db.users) :
    Settled db db' := ⟨h, fun id ↦ by rw [husers]⟩

theorem Settled.of_set (h : Grows (Names db) db db') (hget : db.users.get? id = some user)
    (hset : db'.users = db.users.set id u₁) (hname : u₁.username = user.username) :
    Settled db db' := by
  refine ⟨h, ?_⟩
  intro j
  rw [hset, Table.get?_set]
  split_ifs with hj
  · rw [hj, hget, Option.map_some, Option.map_some, hname]
  · rfl

theorem login_settled (now : Instant) (ipAddress : Option Text) (jti username password : Text)
    (db : Database) :
    Settled db (login bcrypt settings now ipAddress jti username password db).1 := by
  unfold login authenticateUser
  cases hfound : db.userByUsername username with
  | none => exact .of_users (grows_event (names_anonymous rfl) db) rfl
  | some found =>
    obtain ⟨id, user⟩ := found
    have hget := userByUsername_get? hfound
    have hsigned {entry : AuditLog} (h : Signs id user.username entry) :
        Names db entry := h.names hget
    dsimp only
    split_ifs
    · exact .of_users (grows_event (hsigned ⟨rfl, rfl⟩) db) rfl
    · exact .of_users (grows_event (hsigned ⟨rfl, rfl⟩) db) rfl
    · exact .of_set ((grows_event (hsigned ⟨rfl, rfl⟩) db).trans (.of_same rfl)) hget rfl rfl

theorem logout_settled {bearer : Bearer} (h : logout bearer db = .ok db') : Settled db db' := by
  obtain ⟨call, hcall, h⟩ := bind_eq_ok.mp h
  obtain ⟨hget, -⟩ := authenticated_user hcall
  have hsigned {entry : AuditLog} (h : Signs call.actor.id call.actor.user.username entry) :
      Names db entry := h.names hget
  dsimp only at h
  split_ifs at h
  all_goals
    cases h
    refine .of_users ?_ rfl
    exact (Grows.of_same rfl).trans ((grows_event (hsigned ⟨rfl, rfl⟩) _).trans (.of_same rfl))

theorem revokeAll_signed (now : Instant) (id : ℕ) {name : Text} (db : Database)
    (h : user.username = name) :
    Grows (Signs id name) db (revokeAllTokensForUser now id user db).2 :=
  (Grows.of_same rfl).trans (grows_event ⟨rfl, congrArg some h⟩ _)

theorem changePassword_settled {salt current new : Text}
    (hget : db.users.get? call.actor.id = some call.actor.user) :
    Settled db (Services.Auth.changePassword bcrypt settings call salt current new db).1 := by
  have hsigned {entry : AuditLog} (h : Signs call.actor.id call.actor.user.username entry) :
      Names db entry := h.names hget
  unfold Services.Auth.changePassword
  dsimp only
  split_ifs
  · exact .of_users (grows_event (hsigned ⟨rfl, rfl⟩) db) rfl
  · cases enforcePasswordPolicy settings.passwordMinLength new call.actor.user.username with
    | error violations => exact .refl db
    | ok u =>
      dsimp only
      cases hashPassword bcrypt salt new with
      | error message => exact .refl db
      | ok hashed =>
        refine .of_set ?_ hget rfl rfl
        exact ((revokeAll_signed _ _ _ rfl).mono fun _ ↦ hsigned).trans
          (grows_event (hsigned ⟨rfl, rfl⟩) _)

/-- The sender of an accepted request about other accounts is an active administrator. -/
theorem authorized_admin {bearer : Bearer} {permission : Permission}
    (hpermission : ∀ role, hasPermission role permission → role = .admin)
    (h : authorized bearer permission db = .ok call) :
    db.users.get? call.actor.id = some call.actor.user ∧ isActiveAdmin call.actor.user := by
  obtain ⟨call', hcall, h⟩ := bind_eq_ok.mp h
  split_ifs at h with hp
  cases h
  obtain ⟨hget, hactive⟩ := authenticated_user hcall
  refine ⟨hget, ?_⟩
  rw [isActiveAdmin, hactive, hpermission _ hp]
  rfl

/-- While the actor is an active administrator, no other account is the last one of these. -/
theorem protectLastAdmin_other {actorId : ℕ} {actor : User}
    (hactor : db.users.get? actorId = some actor)
    (hadmin : isActiveAdmin actor) (hother : actorId ≠ id) (hget : db.users.get? id = some user) :
    protectLastAdmin db user = .ok () := by
  apply protectLastAdmin_ok
  intro hrole hactive
  have htarget : isActiveAdmin user := by
    rw [isActiveAdmin, hactive, hrole]
    rfl
  by_contra hfew
  exact (countActiveAdmins_le_one hget htarget).mp (Nat.not_lt.mp hfew)
    ⟨actorId, actor, hother, hactor, hadmin⟩

section Update

variable {salt : Text} {body : UserUpdate Role} {isActive : Option Bool} {role : Option Role}
    {email password : Option Text} {name : Text}

theorem setActive_signed (hactor : call.actor.user.username = name) (huser : user.username = name)
    (h : setActive call id isActive user db = .ok (u₁, db')) :
    Grows (Signs id name) db db' := by
  cases isActive with
  | none =>
    cases h
    exact .of_same rfl
  | some isActive =>
    simp only [setActive] at h
    split_ifs at h
    · cases h
      exact .of_same rfl
    · obtain ⟨⟨⟩, -, h⟩ := bind_eq_ok.mp h
      cases h
      exact (Grows.of_same rfl).trans (grows_event ⟨rfl, congrArg some hactor⟩ _)
    · obtain ⟨⟨⟩, -, h⟩ := bind_eq_ok.mp h
      cases h
      exact ((Grows.of_same rfl).trans (grows_event ⟨rfl, congrArg some hactor⟩ _)).trans
        (revokeAll_signed _ id _ (by exact huser))

theorem setRole_signed (hactor : call.actor.user.username = name) (huser : user.username = name)
    (h : setRole call id role user db = .ok (u₁, db')) : Grows (Signs id name) db db' := by
  cases role with
  | none =>
    cases h
    exact .of_same rfl
  | some role =>
    simp only [setRole] at h
    split_ifs at h
    · cases h
      exact .of_same rfl
    · obtain ⟨⟨⟩, -, h⟩ := bind_eq_ok.mp h
      obtain ⟨new, -, h⟩ := bind_eq_ok.mp h
      cases h
      exact (revokeAll_signed _ id _ (by exact huser)).trans
        (grows_event ⟨rfl, congrArg some hactor⟩ _)

theorem setEmail_signed (hactor : call.actor.user.username = name)
    (h : setEmail call id email user db = .ok (u₁, db')) : Grows (Signs id name) db db' := by
  cases email with
  | none =>
    cases h
    exact .of_same rfl
  | some email =>
    simp only [setEmail] at h
    split_ifs at h
    · cases h
      exact .of_same rfl
    · cases h
      exact (Grows.of_same rfl).trans (grows_event ⟨rfl, congrArg some hactor⟩ _)

theorem setPassword_signed (hactor : call.actor.user.username = name) (huser : user.username = name)
    (h : setPassword bcrypt settings call salt id password user db = .ok (u₁, db')) :
    Grows (Signs id name) db db' := by
  cases password with
  | none =>
    cases h
    exact .of_same rfl
  | some password =>
    obtain ⟨hashed, -, h⟩ := bind_eq_ok.mp h
    cases h
    exact (revokeAll_signed _ id _ (by exact huser)).trans
      (grows_event ⟨rfl, congrArg some hactor⟩ _)

/-- The entries of an update of the actor's own account are right. -/
theorem updateUser_own (hget : db.users.get? id = some user)
    (hactor : call.actor.user.username = name) (huser : user.username = name)
    (h : Services.Users.updateUser bcrypt settings call salt id body db = .ok db') :
    Grows (Signs id name) db db' := by
  obtain ⟨old, u₁, db₁, u₂, db₂, u₃, db₃, u₄, hold, h₁, h₂, h₃, h₄⟩ := updateUser_eq_ok h
  obtain rfl := Option.some.inj (hget.symm.trans hold)
  obtain ⟨-, t₁, s₁, rfl⟩ := setActive_edited h₁
  obtain ⟨-, t₂, s₂, rfl⟩ := setRole_edited h₂
  obtain ⟨-, t₃, s₃, rfl⟩ := setEmail_edited h₃
  have g₁ : Grows (Signs id name) db db₁ := setActive_signed hactor huser h₁
  have g₂ : Grows (Signs id name) db₁ db₂ := setRole_signed hactor (by exact huser) h₂
  have g₃ : Grows (Signs id name) db₂ db₃ := setEmail_signed hactor h₃
  have g₄ : Grows (Signs id name) db₃ db' := setPassword_signed hactor (by exact huser) h₄
  exact ((g₁.trans g₂).trans g₃).trans g₄

/-- An update that asks for nothing new does nothing. -/
theorem updateUser_unchanged (hget : db.users.get? id = some user) (hno : ¬Changes body user) :
    Services.Users.updateUser bcrypt settings call salt id body db = .ok db := by
  simp only [Changes, not_or, not_exists, not_and, not_not] at hno
  obtain ⟨hactive, hrole, hemail, hpassword⟩ := hno
  have h₁ : setActive call id body.isActive user db = .ok (user, db) := by
    cases hbody : body.isActive with
    | none => rfl
    | some isActive => exact if_pos (hactive isActive hbody)
  have h₂ : setRole call id body.role user db = .ok (user, db) := by
    cases hbody : body.role with
    | none => rfl
    | some role => exact if_pos (hrole role hbody)
  have h₃ : setEmail call id body.email user db = .ok (user, db) := by
    cases hbody : body.email with
    | none => rfl
    | some email => exact if_pos (hemail email hbody)
  unfold Services.Users.updateUser getUserOrRaise
  rw [hget, Option.elim_some, ok_bind, h₁, ok_bind]
  dsimp only
  rw [h₂, ok_bind]
  dsimp only
  rw [h₃, ok_bind]
  dsimp only
  cases hbody : body.password with
  | none => rfl
  | some password =>
    rw [hbody] at hpassword
    exact absurd rfl hpassword

end Update

section Checks

variable {salt : Text} {body : UserUpdate Role}

theorem getRole_succeeds_iff {role : Role} : Succeeds (getRole db role) ↔ role ∈ db.roles := by
  unfold getRole
  split_ifs with h
  · exact iff_of_true ⟨_, rfl⟩ h
  · exact iff_of_false (not_succeeds_error _) h

theorem setActive_succeeds (hprotect : protectLastAdmin db user = .ok ()) (isActive : Option Bool) :
    Succeeds (setActive call id isActive user db) := by
  cases isActive with
  | none => exact ⟨_, rfl⟩
  | some isActive =>
    simp only [setActive, hprotect, ok_bind]
    split_ifs <;> exact ⟨_, rfl⟩

theorem setRole_succeeds_iff (hprotect : protectLastAdmin db user = .ok ())
    (hother : call.actor.id ≠ id) {role : Option Role} :
    Succeeds (setRole call id role user db) ↔
      ∀ r, role = some r → r ≠ user.role → r ∈ db.roles := by
  cases role with
  | none => exact iff_of_true ⟨_, rfl⟩ fun r hr ↦ by cases hr
  | some role =>
    simp only [setRole, hprotect, ok_bind, if_neg hother, Option.some.injEq, forall_eq']
    split_ifs with hsame
    · exact iff_of_true ⟨_, rfl⟩ fun hne ↦ absurd hsame hne
    · rw [← getRole_succeeds_iff]
      constructor
      · intro h _
        obtain ⟨r, h⟩ := h
        obtain ⟨new, hnew, -⟩ := bind_eq_ok.mp h
        exact ⟨new, hnew⟩
      · intro h
        exact (h hsame).bind fun new _ ↦ ⟨_, rfl⟩

theorem setEmail_succeeds_iff {email : Option Text} :
    Succeeds (setEmail call id email user db) ↔ ∀ e, email = some e → e ≠ user.email →
      ∀ existing, db.userByEmail e = some existing → existing.1 = id := by
  cases email with
  | none => exact iff_of_true ⟨_, rfl⟩ fun e he ↦ by cases he
  | some email =>
    simp only [setEmail, Option.some.injEq, forall_eq']
    split_ifs with hsame htaken
    · exact iff_of_true ⟨_, rfl⟩ fun hne ↦ absurd hsame hne
    · refine iff_of_false (not_succeeds_error _) ?_
      intro h
      cases hfound : db.userByEmail email with
      | none =>
        rw [hfound] at htaken
        cases htaken
      | some existing =>
        rw [hfound] at htaken
        have hne : existing.1 ≠ id := of_decide_eq_true htaken
        exact hne (h hsame existing hfound)
    · refine iff_of_true ⟨_, rfl⟩ ?_
      intro _ existing hfound
      rw [hfound] at htaken
      simpa using htaken

theorem setPassword_succeeds_iff {password : Option Text} :
    Succeeds (setPassword bcrypt settings call salt id password user db) ↔
      ∀ p, password = some p → Succeeds (newPassword bcrypt settings salt p user.username) := by
  cases password with
  | none => exact iff_of_true ⟨_, rfl⟩ fun p hp ↦ by cases hp
  | some password =>
    simp only [setPassword, Option.some.injEq, forall_eq']
    constructor
    · intro h
      obtain ⟨r, h⟩ := h
      obtain ⟨hashed, hhashed, -⟩ := bind_eq_ok.mp h
      exact ⟨hashed, hhashed⟩
    · intro h
      exact h.bind fun hashed _ ↦ ⟨_, rfl⟩

/-- Another row written with the same address leaves the account that is found by an address. -/
theorem userByEmail_set (hget : db.users.get? id = some user)
    (hset : db'.users = db.users.set id u₁)
    (hemail : u₁.email = user.email) (email : Text) :
    (∀ existing, db'.userByEmail email = some existing → existing.1 = id) ↔
      ∀ existing, db.userByEmail email = some existing → existing.1 = id := by
  have hkey : (db'.userByEmail email).map Prod.fst = (db.userByEmail email).map Prod.fst := by
    unfold Database.userByEmail
    rw [hset]
    exact Table.find?_set hget (p := fun user ↦ decide (user.email = email)) (by rw [hemail])
  have hiff (db : Database) : (∀ existing, db.userByEmail email = some existing → existing.1 = id) ↔
      ∀ k, (db.userByEmail email).map Prod.fst = some k → k = id := by
    simp only [Option.map_eq_some_iff, forall_exists_index, and_imp, forall_apply_eq_imp_iff₂]
  rw [hiff, hiff, hkey]

/-- An update of another account, sent by an active administrator, passes exactly when the role,
the address and the password do. -/
theorem updateUser_succeeds_iff (hactor : db.users.get? call.actor.id = some call.actor.user)
    (hadmin : isActiveAdmin call.actor.user) (hother : call.actor.id ≠ id)
    (hget : db.users.get? id = some user) :
    Succeeds (Services.Users.updateUser bcrypt settings call salt id body db) ↔
      Updatable bcrypt settings salt id body user db := by
  have hprotect := protectLastAdmin_other hactor hadmin hother hget
  have hload : getUserOrRaise db id = .ok user := getUserOrRaise_eq_ok.mpr hget
  unfold Services.Users.updateUser
  rw [hload, ok_bind]
  obtain ⟨⟨u₁, db₁⟩, h₁⟩ : Succeeds (setActive call id body.isActive user db) :=
    setActive_succeeds hprotect body.isActive
  rw [h₁, ok_bind]
  obtain ⟨⟨entries₁, edit₁, -⟩, t₁, s₁, hu₁⟩ := setActive_edited h₁
  have hset₁ := edit₁.users hget
  have hactor₁ : db₁.users.get? call.actor.id = some call.actor.user := by
    rw [hset₁, Table.get?_set_ne _ _ hother]
    exact hactor
  have hget₁ : db₁.users.get? id = some u₁ := by
    rw [hset₁]
    exact Table.get?_set_self _ _ _
  have hrole : Succeeds (setRole call id body.role u₁ db₁) ↔ _ :=
    setRole_succeeds_iff (protectLastAdmin_other hactor₁ hadmin hother hget₁) hother
  rw [edit₁.roles] at hrole
  subst hu₁
  constructor
  · intro h
    obtain ⟨db', h⟩ := h
    obtain ⟨⟨u₂, db₂⟩, h₂, h⟩ := bind_eq_ok.mp h
    obtain ⟨⟨u₃, db₃⟩, h₃, h⟩ := bind_eq_ok.mp h
    obtain ⟨⟨u₄, db₄⟩, h₄, -⟩ := bind_eq_ok.mp h
    obtain ⟨⟨entries₂, edit₂, -⟩, t₂, s₂, rfl⟩ := setRole_edited h₂
    obtain ⟨-, t₃, s₃, rfl⟩ := setEmail_edited h₃
    have hemail := setEmail_succeeds_iff.mp ⟨_, h₃⟩
    have hpassword := setPassword_succeeds_iff.mp ⟨_, h₄⟩
    refine ⟨hrole.mp ⟨_, h₂⟩, ?_, hpassword⟩
    intro email hbody hne
    rw [← userByEmail_set hget ((edit₁.trans edit₂).users hget) rfl]
    exact hemail email hbody hne
  · intro h
    refine (hrole.mpr h.role).bind fun r₂ h₂ ↦ ?_
    obtain ⟨u₂, db₂⟩ := r₂
    obtain ⟨⟨entries₂, edit₂, -⟩, t₂, s₂, hu₂⟩ := setRole_edited h₂
    have hsame : u₂.email = user.email := by rw [hu₂]
    have hemail : Succeeds (setEmail call id body.email u₂ db₂) := by
      apply setEmail_succeeds_iff.mpr
      intro email hbody hne
      rw [userByEmail_set hget ((edit₁.trans edit₂).users hget) hsame]
      exact h.email email hbody (hsame ▸ hne)
    refine hemail.bind fun r₃ h₃ ↦ ?_
    obtain ⟨u₃, db₃⟩ := r₃
    obtain ⟨-, t₃, s₃, hu₃⟩ := setEmail_edited h₃
    have hname : u₃.username = user.username := by rw [hu₃, hu₂]
    have hpassword : Succeeds (setPassword bcrypt settings call salt id body.password u₃ db₃) := by
      rw [setPassword_succeeds_iff, hname]
      exact h.password
    exact hpassword.bind fun _ _ ↦ ⟨_, rfl⟩

theorem userByUsername_none {username : Text} (h : db.userByUsername username = none)
    (hget : db.users.get? id = some user) : user.username ≠ username := by
  intro hname
  have hno := List.find?_eq_none.mp h (id, user) (Table.mem_rows.mpr hget)
  exact hno (decide_eq_true hname)

theorem createUser_iff {body : UserCreate Role} :
    Succeeds (Services.Users.createUser bcrypt settings call salt body db) ↔
      Creatable bcrypt settings salt body db := by
  unfold Services.Users.createUser
  constructor
  · intro h
    obtain ⟨r, h⟩ := h
    split_ifs at h with hname hemail
    obtain ⟨hashed, hhashed, h⟩ := bind_eq_ok.mp h
    obtain ⟨role, hrole, -⟩ := bind_eq_ok.mp h
    rw [Bool.not_eq_true, Option.isSome_eq_false_iff, Option.isNone_iff_eq_none] at hname hemail
    exact ⟨hname, hemail, ⟨hashed, hhashed⟩, getRole_succeeds_iff.mp ⟨role, hrole⟩⟩
  · intro h
    rw [h.username, h.email]
    refine h.password.bind fun hashed _ ↦ ?_
    exact (getRole_succeeds_iff.mpr h.role).bind fun role _ ↦ ⟨_, rfl⟩

theorem createUser_entry {body : UserCreate Role}
    (h : Services.Users.createUser bcrypt settings call salt body db = .ok (id, db')) :
    id = db.users.nextId ∧ ∃ user details, db'.users = db.users.set id user ∧
      user.username = body.username ∧ Appends db db' [userEntry call .userCreate id details] := by
  obtain ⟨hashed, role, -, -, rfl, rfl⟩ := createUser_eq_ok h
  exact ⟨rfl, _, _, rfl, rfl, appends_event _ _ _⟩

theorem deleteUser_entry (h : Services.Users.deleteUser call id db = .ok db') :
    db'.users = db.users.erase id ∧ ∃ details,
      Appends db db' [userEntry call .userDelete id details] := by
  obtain ⟨user, -, -, -, rfl⟩ := deleteUser_eq_ok h
  exact ⟨rfl, _, appends_event _ _ _⟩

theorem deleteUser_iff (hactor : db.users.get? call.actor.id = some call.actor.user)
    (hadmin : isActiveAdmin call.actor.user) :
    Succeeds (Services.Users.deleteUser call id db) ↔
      call.actor.id ≠ id ∧ (db.users.get? id).isSome ∧ OwnsNothing db id := by
  rw [ownsNothing_iff]
  constructor
  · intro h
    obtain ⟨db', h⟩ := h
    obtain ⟨user, huser, hself, howns, -⟩ := deleteUser_eq_ok h
    rw [huser]
    exact ⟨hself, rfl, howns⟩
  · intro h
    obtain ⟨hother, hsome, howns⟩ := h
    obtain ⟨user, hget⟩ := Option.isSome_iff_exists.mp hsome
    have hload : getUserOrRaise db id = .ok user := getUserOrRaise_eq_ok.mpr hget
    unfold Services.Users.deleteUser
    rw [hload, ok_bind, protectLastAdmin_other hactor hadmin hother hget, ok_bind, if_neg hother,
      if_neg howns]
    exact ⟨_, rfl⟩

end Checks

end Accounts

section Steps

variable {bcrypt : Bcrypt} {settings : Settings} {db db' : Database} {r : Request}

theorem Settled.attributed (h : Settled db db') : Attributed db db' :=
  fun entry hmem ↦ .inl (h.entries.newEntries entry hmem)

theorem answer_settled {result : Except HttpError Database}
    (h : ∀ db', result = .ok db' → Settled db db') : Settled db (answer db result).1 := by
  cases result with
  | error e => exact .refl db
  | ok db' => exact h db' rfl

theorem only_admin (permission : Permission)
    (h : permission = .usersCreate ∨ permission = .usersUpdate ∨ permission = .usersDelete)
    (role : Role) (hp : hasPermission role permission) : role = .admin := by
  rcases h with rfl | rfl | rfl <;> cases role <;> first | rfl | cases hp

theorem account_settled {r : AccountRequest}
    (hno : ¬AdministersOther bcrypt settings db (.account r)) :
    Settled db (r.serve bcrypt settings db).1 := by
  cases r with
  | login now ipAddress jti username password =>
    exact login_settled now ipAddress jti username password db
  | logout bearer => exact answer_settled fun db' h ↦ logout_settled h
  | changePassword bearer salt body =>
    change Settled db (Api.Accounts.changePassword bcrypt settings bearer salt body db).1
    unfold Api.Accounts.changePassword
    cases hcall : authenticated bearer db with
    | error e => exact .refl db
    | ok call =>
      cases checkBody body.validate with
      | error e => exact .refl db
      | ok checked => exact changePassword_settled (authenticated_user hcall).1
  | createUser bearer salt body =>
    apply answer_settled
    intro db' h
    obtain ⟨⟨id, db₁⟩, hcreate, rfl⟩ := map_eq_ok.mp h
    obtain ⟨call, hcall, hcreate⟩ := bind_eq_ok.mp hcreate
    obtain ⟨checked, hbody, hcreate⟩ := bind_eq_ok.mp hcreate
    exact absurd ⟨call, checked, hcall, hbody, createUser_iff.mp ⟨_, mapError_eq_ok.mp hcreate⟩⟩ hno
  | updateUser bearer salt id body =>
    apply answer_settled
    intro db' h
    obtain ⟨call, hcall, h⟩ := bind_eq_ok.mp h
    obtain ⟨checked, hbody, h⟩ := bind_eq_ok.mp h
    have hservice := mapError_eq_ok.mp h
    obtain ⟨hactor, hadmin⟩ := authorized_admin (only_admin _ (.inr (.inl rfl))) hcall
    obtain ⟨old, new, hold, hupdated⟩ := updateUser_updated hservice
    have hname : new.username = old.username := by rw [hupdated.row]
    obtain ⟨entries, hedited, -⟩ := hupdated.edited
    by_cases hself : call.actor.id = id
    · have hsame : call.actor.user = old := by
        rw [hself, hold] at hactor
        exact (Option.some.inj hactor).symm
      have hsigned := updateUser_own hold (congrArg _ hsame) rfl hservice
      exact .of_set (hsigned.mono fun _ hs ↦ hs.names hold) hold (hedited.users hold) hname
    · by_cases hchanges : Changes checked old
      · have hupdatable := (updateUser_succeeds_iff hactor hadmin hself hold).mp ⟨db', hservice⟩
        exact absurd ⟨call, checked, old, hcall, hbody, hself, hold, hchanges, hupdatable⟩ hno
      · rw [updateUser_unchanged hold hchanges] at hservice
        cases hservice
        exact .refl db
  | deleteUser bearer id =>
    apply answer_settled
    intro db' h
    obtain ⟨call, hcall, h⟩ := bind_eq_ok.mp h
    obtain ⟨hactor, hadmin⟩ := authorized_admin (only_admin _ (.inr (.inr rfl))) hcall
    have hdeleted := (deleteUser_iff hactor hadmin).mp ⟨db', mapError_eq_ok.mp h⟩
    exact absurd ⟨call, hcall, hdeleted⟩ hno

theorem serve_settled (hno : ¬AdministersOther bcrypt settings db r) :
    Settled db (r.serve bcrypt settings db).1 := by
  cases r with
  | account r => exact account_settled hno
  | edit op =>
    apply answer_settled
    intro db' h
    obtain ⟨⟨db₁, n⟩, hcommit, rfl⟩ := map_eq_ok.mp h
    obtain ⟨call, hget, hgrows⟩ := commit_grows hcommit
    exact .of_users (hgrows.mono fun _ hs ↦ hs.names hget) (commit_framed hcommit).users
  | execute env sender jobId =>
    exact .of_users (execute_grows env sender jobId db) (execute_frame env sender jobId db).users
  | fire env jobId =>
    exact .of_users ((runScheduledJob_grows env jobId db).mono fun _ ↦ names_anonymous)
      (runScheduledJob_frame env jobId db).users

/-- An entry with the id of one account and the username of another. -/
theorem not_names {entry : AuditLog} {id : ℕ} {name : Text} (hid : entry.userId = some id)
    (hname : entry.username = some name)
    (h : ∀ user, db.users.get? id = some user → user.username ≠ name) : ¬Names db entry := by
  intro hnames
  obtain ⟨user, hget, huser⟩ := hnames id hid
  exact h user hget (Option.some.inj (huser.symm.trans hname))

theorem not_attributed {entry : AuditLog} {id : ℕ} {name : Text} (hmem : entry ∈ newEntries db db')
    (hid : entry.userId = some id) (hname : entry.username = some name)
    (hbefore : ∀ user, db.users.get? id = some user → user.username ≠ name)
    (hafter : ∀ user, db'.users.get? id = some user → user.username ≠ name) :
    ¬Attributed db db' := by
  intro h
  rcases h entry hmem with h | h
  · exact not_names hid hname hbefore h
  · exact not_names hid hname hafter h

theorem mem_of_changes (call : Call) (id : ℕ) {body : UserUpdate Role} {user : User}
    (h : Changes body user) : ∃ action details, userEntry call action id details ∈
      activeEntries call id body.isActive user ++ roleEntries call id body.role user ++
        emailEntries call id body.email user ++ passwordEntries call id body.password := by
  rcases h with ⟨isActive, hbody, hne⟩ | ⟨role, hbody, hne⟩ | ⟨email, hbody, hne⟩ | hsome
  · have hne : body.isActive.getD user.isActive ≠ user.isActive := by
      rw [hbody]
      exact hne
    exact ⟨_, _, List.mem_append_left _ (List.mem_append_left _
      (List.mem_append_left _ (mem_activeEntries hne)))⟩
  · have hne : body.role.getD user.role ≠ user.role := by
      rw [hbody]
      exact hne
    obtain ⟨details, hmem⟩ := mem_roleEntries hne
    exact ⟨_, details, List.mem_append_left _ (List.mem_append_left _ (List.mem_append_right _ hmem))⟩
  · have hne : body.email.getD user.email ≠ user.email := by
      rw [hbody]
      exact hne
    obtain ⟨details, hmem⟩ := mem_emailEntries hne
    exact ⟨_, details, List.mem_append_left _ (List.mem_append_right _ hmem)⟩
  · obtain ⟨password, hbody⟩ := Option.isSome_iff_exists.mp hsome
    rw [hbody]
    exact ⟨_, _, List.mem_append_right _ (List.mem_singleton_self _)⟩

/-- The entries about the account of another have its id and the username of their actor. -/
theorem serve_not_attributed (hnames : UniqueNames db) (h : AdministersOther bcrypt settings db r) :
    ¬Attributed db (r.serve bcrypt settings db).1 := by
  cases r with
  | edit op => exact h.elim
  | execute env sender jobId => exact h.elim
  | fire env jobId => exact h.elim
  | account r =>
    cases r with
    | login now ipAddress jti username password => exact h.elim
    | logout bearer => exact h.elim
    | changePassword bearer salt body => exact h.elim
    | createUser bearer salt body =>
      obtain ⟨call, checked, hcall, hbody, hcreatable⟩ := h
      obtain ⟨hactor, -⟩ := authorized_admin (only_admin _ (.inl rfl)) hcall
      have hfresh := userByUsername_none hcreatable.username hactor
      have hsucceeds : Succeeds (Services.Users.createUser bcrypt settings call salt checked db) :=
        createUser_iff.mpr hcreatable
      obtain ⟨⟨id, db'⟩, hservice⟩ := hsucceeds
      have hserve : Api.Accounts.createUser bcrypt settings bearer salt body db = .ok (id, db') :=
        bind_eq_ok.mpr ⟨call, hcall, bind_eq_ok.mpr ⟨checked, hbody, mapError_eq_ok.mpr hservice⟩⟩
      change ¬Attributed db (answer db (Prod.snd <$> Api.Accounts.createUser bcrypt settings bearer salt
        body db)).1
      rw [hserve]
      change ¬Attributed db db'
      obtain ⟨rfl, user, details, hset, hname, happends⟩ := createUser_entry hservice
      have hnew : userEntry call .userCreate db.users.nextId details ∈ newEntries db db' := by
        rw [happends.newEntries]
        exact List.mem_singleton_self _
      refine not_attributed hnew rfl rfl ?_ ?_
      · intro u hu
        rw [Table.get?_nextId] at hu
        cases hu
      · intro u hu
        rw [hset, Table.get?_set_self] at hu
        rw [← Option.some.inj hu, hname]
        exact hfresh.symm
    | updateUser bearer salt id body =>
      obtain ⟨call, checked, user, hcall, hbody, hother, hget, hchanges, hupdatable⟩ := h
      obtain ⟨hactor, hadmin⟩ := authorized_admin (only_admin _ (.inr (.inl rfl))) hcall
      obtain ⟨db', hservice⟩ := (updateUser_succeeds_iff hactor hadmin hother hget).mpr hupdatable
      have hserve : Api.Accounts.updateUser bcrypt settings bearer salt id body db = .ok db' :=
        bind_eq_ok.mpr ⟨call, hcall, bind_eq_ok.mpr ⟨checked, hbody, mapError_eq_ok.mpr hservice⟩⟩
      change ¬Attributed db (answer db (Api.Accounts.updateUser bcrypt settings bearer salt id body db)).1
      rw [hserve]
      change ¬Attributed db db'
      obtain ⟨old, new, hold, hupdated⟩ := updateUser_updated hservice
      obtain rfl := Option.some.inj (hget.symm.trans hold)
      obtain ⟨entries, hedited, hentries⟩ := hupdated.edited
      obtain ⟨action, details, hmem⟩ := mem_of_changes call id hchanges
      have hname : user.username ≠ call.actor.user.username :=
        fun hsame ↦ hother (hnames.eq hactor hget hsame.symm)
      have hnew : userEntry call action id details ∈ newEntries db db' := by
        rw [hedited.entries.newEntries]
        rw [← hentries] at hmem
        exact List.mem_of_mem_filter hmem
      refine not_attributed hnew rfl rfl ?_ ?_
      · intro u hu
        rw [hget] at hu
        rw [← Option.some.inj hu]
        exact hname
      · intro u hu
        rw [hedited.users hget, Table.get?_set_self] at hu
        rw [← Option.some.inj hu, hupdated.row]
        exact hname
    | deleteUser bearer id =>
      obtain ⟨call, hcall, hdeleted⟩ := h
      obtain ⟨hactor, hadmin⟩ := authorized_admin (only_admin _ (.inr (.inr rfl))) hcall
      obtain ⟨db', hservice⟩ := (deleteUser_iff hactor hadmin).mpr hdeleted
      have hserve : Api.Accounts.deleteUser bearer id db = .ok db' :=
        bind_eq_ok.mpr ⟨call, hcall, mapError_eq_ok.mpr hservice⟩
      change ¬Attributed db (answer db (Api.Accounts.deleteUser bearer id db)).1
      rw [hserve]
      change ¬Attributed db db'
      obtain ⟨husers, details, happends⟩ := deleteUser_entry hservice
      have hnew : userEntry call .userDelete id details ∈ newEntries db db' := by
        rw [happends.newEntries]
        exact List.mem_singleton_self _
      refine not_attributed hnew rfl rfl ?_ ?_
      · intro u hu hsame
        exact hdeleted.1 (hnames.eq hactor hu hsame.symm)
      · intro u hu
        rw [husers, Table.get?_erase, if_pos rfl] at hu
        cases hu

end Steps

section Runs

variable {db db' : Database}

theorem Settled.get? (h : Settled db db') {id : ℕ} {user : User}
    (hget : db.users.get? id = some user) :
    ∃ user', db'.users.get? id = some user' ∧ user'.username = user.username := by
  have hname := h.names id
  rw [hget, Option.map_some] at hname
  exact Option.map_eq_some_iff.mp hname

theorem Settled.get?_old (h : Settled db db') {id : ℕ} {user' : User}
    (hget : db'.users.get? id = some user') :
    ∃ user, db.users.get? id = some user ∧ user.username = user'.username := by
  have hname := (h.names id).symm
  rw [hget, Option.map_some] at hname
  exact Option.map_eq_some_iff.mp hname

theorem Settled.uniqueNames (h : Settled db db') (hnames : UniqueNames db) : UniqueNames db' := by
  apply Table.nodup_map_iff.mpr
  intro i j user user' hi hj hsame
  obtain ⟨old, hold, hname⟩ := h.get?_old hi
  obtain ⟨old', hold', hname'⟩ := h.get?_old hj
  exact hnames.eq hold hold' (hname.trans (hsame.trans hname'.symm))

theorem Settled.namesKept (h : Settled db db') {entry : AuditLog} (hentry : Names db entry) :
    Names db' entry := by
  intro id hid
  obtain ⟨user, hget, hname⟩ := hentry id hid
  obtain ⟨user', hget', hname'⟩ := h.get? hget
  exact ⟨user', hget', hname.trans (congrArg some hname'.symm)⟩

theorem Settled.consistent (h : Settled db db') (hdb : Consistent db) : Consistent db' := by
  obtain ⟨entries, happends, hall⟩ := h.entries
  intro entry hmem
  unfold trail at hmem
  rw [happends] at hmem
  rcases List.mem_append.mp hmem with hmem | hmem
  · exact h.namesKept (hdb entry hmem)
  · exact h.namesKept (hall entry hmem)

/-- While the usernames are unique, the id and the username select the same entries. -/
theorem Consistent.sameSelection (h : Consistent db) (hnames : UniqueNames db) :
    SameSelection db := by
  intro id user hget
  apply List.filter_congr
  intro entry hmem
  cases huser : entry.userId with
  | none => rfl
  | some k =>
    obtain ⟨owner, howner, hname⟩ := h entry hmem k huser
    rw [Option.isSome_some, Bool.true_and, decide_eq_decide, hname, Option.some.injEq,
      Option.some.injEq]
    constructor
    · intro hk
      rw [hk, hget] at howner
      rw [Option.some.inj howner]
    · intro hsame
      exact hnames.eq howner hget hsame

/-- Along a run each entry names the account it has the id of, and the trail is selected by ids as
by usernames, exactly when no request administers the account of another. -/
theorem attributed_iff (bcrypt : Bcrypt) (settings : Settings) {db : Database}
    (hnames : UniqueNames db) (hdb : Consistent db) (rs : List Request) :
    Guarded (step bcrypt settings) (fun db r ↦ Attributed db (r.serve bcrypt settings db).1) db rs ∧
        Always (step bcrypt settings) SameSelection db rs ↔
      Guarded (step bcrypt settings) (fun db r ↦ ¬AdministersOther bcrypt settings db r) db rs := by
  have hkeep (s : Database) (r : Request) (t : Database) (hs : UniqueNames s ∧ Consistent s)
      (hno : ¬AdministersOther bcrypt settings s r) (hstep : step bcrypt settings s r = some t) :
      UniqueNames t ∧ Consistent t := by
    obtain rfl := Option.some.inj hstep
    have hsettled := serve_settled hno
    exact ⟨hsettled.uniqueNames hs.1, hsettled.consistent hs.2⟩
  have hguarded := guarded_iff hkeep (D := fun s r ↦ Attributed s (r.serve bcrypt settings s).1)
    (fun s r hs ↦ ⟨fun h hadministers ↦ serve_not_attributed hs.1 hadministers h,
      fun hno ↦ (serve_settled hno).attributed⟩) rs ⟨hnames, hdb⟩
  constructor
  · intro h
    exact hguarded.mp h.1
  · intro h
    refine ⟨hguarded.mpr h, always_mono ?_ (guarded_always hkeep ⟨hnames, hdb⟩ h)⟩
    intro s hs
    exact hs.2.sameSelection hs.1

end Runs

section Sample

/-- The administrator deactivates the operator. -/
def sampleRequest : Request := .account (.updateUser sampleBearer [] 2 { isActive := some false })

theorem deactivation_not_attributed :
    ¬Guarded (step sampleBcrypt ⟨60, 10⟩)
      (fun db r ↦ Attributed db (r.serve sampleBcrypt ⟨60, 10⟩ db).1) sample [sampleRequest] := by
  intro h
  have hdata : ((newEntries sample (sampleRequest.serve sampleBcrypt ⟨60, 10⟩ sample).1).map
      fun entry ↦ (entry.userId, entry.username)) =
        [(some 2, some "ana".toList), (some 2, some "bea".toList)] := by decide
  have hafter : ((sampleRequest.serve sampleBcrypt ⟨60, 10⟩ sample).1.users.get? 2).map
      Data.Records.User.username = some "bea".toList := by decide
  have hmem : (some 2, some "ana".toList) ∈
      (newEntries sample (sampleRequest.serve sampleBcrypt ⟨60, 10⟩ sample).1).map
        fun entry ↦ (entry.userId, entry.username) := by
    rw [hdata]
    exact List.mem_cons_self
  obtain ⟨entry, hentry, heq⟩ := List.mem_map.mp hmem
  obtain ⟨hid, hname⟩ := Prod.mk.inj heq
  refine not_attributed hentry hid hname ?_ ?_ h.1
  · intro user hget hsame
    obtain rfl : sampleUser _ _ _ = user := Option.some.inj hget
    exact absurd hsame (by decide)
  · intro user hget hsame
    rw [hget, Option.map_some, hsame] at hafter
    exact absurd hafter (by decide)

/-- The administrator changes the own address and logs out. -/
def sampleRequests : List Request :=
  [.account (.updateUser sampleBearer [] 1 { email := some "ana@example.org".toList }),
    .account (.logout sampleBearer)]

theorem attributed_sample :
    Guarded (step sampleBcrypt ⟨60, 10⟩)
        (fun db r ↦ Attributed db (r.serve sampleBcrypt ⟨60, 10⟩ db).1) sample sampleRequests ∧
      Always (step sampleBcrypt ⟨60, 10⟩) SameSelection sample sampleRequests := by
  have hempty : Consistent sample := fun _ hmem ↦ absurd hmem List.not_mem_nil
  refine (attributed_iff sampleBcrypt ⟨60, 10⟩ (by decide) hempty _).mpr
    ⟨?_, fun _ _ ↦ ⟨?_, fun _ _ ↦ trivial⟩⟩
  · intro hadministers
    obtain ⟨call, checked, user, hcall, -, hother, -⟩ := hadministers
    obtain ⟨call', hcall', h⟩ := bind_eq_ok.mp hcall
    split_ifs at h
    cases h
    exact hother (getCurrentUser_eq_ok.mp (authenticated_ok hcall').2).2.1
  · exact fun hadministers ↦ hadministers

end Sample

end CronPanel.Access.Attribution
