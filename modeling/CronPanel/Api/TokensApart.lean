import CronPanel.Api.Accounts
import CronPanel.Api.Operations

namespace CronPanel.Api.TokensApart

open Library.Strings Library.Tables Library.Fallible Core.Permissions Core.PasswordPolicy
open Core.Security Data.Records Data.Repositories Schemas.Bodies Schemas.Accounts Execution.Policy
open Services.CronJobs
open Services.Scripts Services.Auth Services.Users Errors Operations Api.Accounts

/-- The tables with other revoked tokens. -/
def withTokens (tokens : Table ℕ RevokedToken) (db : Database) : Database :=
  { db with revokedTokens := tokens }

/-- Two outcomes that differ in the revoked tokens alone. -/
def Apart {ε : Type} (tokens : Table ℕ RevokedToken) : Except ε Database → Except ε Database → Prop :=
  Agree Eq fun db db' ↦ db' = withTokens tokens db

/-- The same, of outcomes with the id of a new row. -/
def CreatesApart {ε : Type} (tokens : Table ℕ RevokedToken) :
    Except ε (ℕ × Database) → Except ε (ℕ × Database) → Prop :=
  Agree Eq fun r r' ↦ r' = (r.1, withTokens tokens r.2)

variable {tokens : Table ℕ RevokedToken} {call : Call} {db : Database} {k : ℕ} {host : Host}
  {bcrypt : Bcrypt} {settings : Settings} {salt : Text}

section Jobs

theorem createCronJob_apart (body : CronJobCreate) :
    CreatesApart tokens (Services.CronJobs.createCronJob call body db)
      (Services.CronJobs.createCronJob call body (withTokens tokens db)) := by
  refine Agree.bind (.same (validateScriptReference db body.scriptId)) fun _ _ _ ↦ ?_
  refine Agree.bind (.same _) ?_
  rintro job _ rfl
  exact .ok rfl

theorem updateCronJob_apart (body : CronJobUpdate) :
    Apart tokens (Services.CronJobs.updateCronJob call k body db)
      (Services.CronJobs.updateCronJob call k body (withTokens tokens db)) := by
  refine Agree.bind (.same (getJobForWrite db k call.actor)) ?_
  rintro job _ rfl
  refine Agree.bind (.same (validateScriptReference db body.scriptId)) fun _ _ _ ↦ ?_
  refine Agree.bind (.same (editCronJob body job)) ?_
  rintro ⟨edited, changes⟩ _ rfl
  exact .ite Iff.rfl (fun _ ↦ .ok rfl) fun _ ↦ .ok rfl

theorem updateCronJobStatus_apart (isActive : Bool) :
    Apart tokens (Services.CronJobs.updateCronJobStatus call k isActive db)
      (Services.CronJobs.updateCronJobStatus call k isActive (withTokens tokens db)) := by
  refine Agree.bind (.same (getJobForWrite db k call.actor)) ?_
  rintro job _ rfl
  exact .ite Iff.rfl (fun _ ↦ .ok rfl) fun _ ↦ .ok rfl

theorem deleteCronJob_apart :
    Apart tokens (Services.CronJobs.deleteCronJob call k db)
      (Services.CronJobs.deleteCronJob call k (withTokens tokens db)) := by
  refine Agree.bind (.same (getJobForWrite db k call.actor)) ?_
  rintro job _ rfl
  exact .ok rfl

end Jobs

section Scripts

theorem createScript_apart (body : ScriptCreate) :
    CreatesApart tokens (Services.Scripts.createScript call host body db)
      (Services.Scripts.createScript call host body (withTokens tokens db)) := by
  refine Agree.bind (.same (canonicalize host body.path)) ?_
  rintro validated _ rfl
  refine .ite Iff.rfl (fun _ ↦ .error rfl) fun _ ↦ ?_
  exact .ite Iff.rfl (fun _ ↦ .error rfl) fun _ ↦ .ok rfl

theorem recordScriptUpdate_apart (old new : Script) (changes : List Change)
    (db : Database) :
    recordScriptUpdate call k old new changes (withTokens tokens db) =
      withTokens tokens (recordScriptUpdate call k old new changes db) := by
  unfold recordScriptUpdate
  split_ifs <;> rfl

theorem updateScript_apart (body : ScriptUpdate) :
    Apart tokens (Services.Scripts.updateScript call host k body db)
      (Services.Scripts.updateScript call host k body (withTokens tokens db)) := by
  refine Agree.bind (.same (getScript db k)) ?_
  rintro script _ rfl
  refine Agree.bind (.same (editScript db host k body script)) ?_
  rintro ⟨edited, changes⟩ _ rfl
  refine .ite Iff.rfl (fun _ ↦ .ok rfl) fun _ ↦ ?_
  refine .ite Iff.rfl (fun _ ↦ .error rfl) fun _ ↦ .ok ?_
  exact recordScriptUpdate_apart script edited changes { db with scripts := _ }

theorem deleteScript_apart :
    Apart tokens (Services.Scripts.deleteScript call k db)
      (Services.Scripts.deleteScript call k (withTokens tokens db)) := by
  refine Agree.bind (.same (getScript db k)) ?_
  rintro script _ rfl
  exact .ite Iff.rfl (fun _ ↦ .error rfl) fun _ ↦ .ok rfl

end Scripts

section Accounts

theorem createUser_apart (body : UserCreate Role) :
    CreatesApart tokens (Services.Users.createUser bcrypt settings call salt body db)
      (Services.Users.createUser bcrypt settings call salt body (withTokens tokens db)) := by
  refine .ite Iff.rfl (fun _ ↦ .error rfl) fun _ ↦ ?_
  refine .ite Iff.rfl (fun _ ↦ .error rfl) fun _ ↦ ?_
  refine Agree.bind (.same (newPassword bcrypt settings salt body.password body.username)) ?_
  rintro hashedPassword _ rfl
  refine Agree.bind (.same (getRole db body.role)) ?_
  rintro role _ rfl
  exact .ok rfl

/-- A part of an update of an account, that hands on the row and the tables. -/
def PartApart (tokens : Table ℕ RevokedToken) :
    Except UserError (User × Database) → Except UserError (User × Database) → Prop :=
  Agree Eq fun r r' ↦ r' = (r.1, withTokens tokens r.2)

theorem setActive_apart (isActive : Option Bool) (user : User) :
    PartApart tokens (setActive call k isActive user db)
      (setActive call k isActive user (withTokens tokens db)) := by
  cases isActive with
  | none => exact .ok rfl
  | some isActive =>
    refine .ite Iff.rfl (fun _ ↦ .ok rfl) fun _ ↦ ?_
    refine Agree.bind (.same (protectLastAdmin db user)) fun _ _ _ ↦ ?_
    cases isActive <;> exact .ok rfl

theorem setRole_apart (role : Option Role) (user : User) :
    PartApart tokens (setRole call k role user db)
      (setRole call k role user (withTokens tokens db)) := by
  cases role with
  | none => exact .ok rfl
  | some role =>
    refine .ite Iff.rfl (fun _ ↦ .ok rfl) fun _ ↦ ?_
    refine .ite Iff.rfl (fun _ ↦ .error rfl) fun _ ↦ ?_
    refine Agree.bind (.same (protectLastAdmin db user)) fun _ _ _ ↦ ?_
    refine Agree.bind (.same (getRole db role)) ?_
    rintro new _ rfl
    exact .ok rfl

theorem setEmail_apart (email : Option Text) (user : User) :
    PartApart tokens (setEmail call k email user db)
      (setEmail call k email user (withTokens tokens db)) := by
  cases email with
  | none => exact .ok rfl
  | some email =>
    refine .ite Iff.rfl (fun _ ↦ .ok rfl) fun _ ↦ ?_
    exact .ite Iff.rfl (fun _ ↦ .error rfl) fun _ ↦ .ok rfl

theorem setPassword_apart (password : Option Text) (user : User) :
    PartApart tokens (setPassword bcrypt settings call salt k password user db)
      (setPassword bcrypt settings call salt k password user (withTokens tokens db)) := by
  cases password with
  | none => exact .ok rfl
  | some password =>
    refine Agree.bind (.same (newPassword bcrypt settings salt password user.username)) ?_
    rintro hashedPassword _ rfl
    exact .ok rfl

theorem updateUser_apart (body : UserUpdate Role) :
    Apart tokens (Services.Users.updateUser bcrypt settings call salt k body db)
      (Services.Users.updateUser bcrypt settings call salt k body (withTokens tokens db)) := by
  refine Agree.bind (.same (getUserOrRaise db k)) ?_
  rintro user _ rfl
  refine Agree.bind (setActive_apart body.isActive user) ?_
  rintro ⟨user, db⟩ _ rfl
  refine Agree.bind (setRole_apart body.role user) ?_
  rintro ⟨user, db⟩ _ rfl
  refine Agree.bind (setEmail_apart body.email user) ?_
  rintro ⟨user, db⟩ _ rfl
  refine Agree.bind (setPassword_apart body.password user) ?_
  rintro ⟨user, db⟩ _ rfl
  exact .ok rfl

theorem deleteUser_apart :
    Apart tokens (Services.Users.deleteUser call k db)
      (Services.Users.deleteUser call k (withTokens tokens db)) := by
  refine Agree.bind (.same (getUserOrRaise db k)) ?_
  rintro user _ rfl
  refine Agree.bind (.same (protectLastAdmin db user)) fun _ _ _ ↦ ?_
  refine .ite Iff.rfl (fun _ ↦ .error rfl) fun _ ↦ ?_
  exact .ite Iff.rfl (fun _ ↦ .error rfl) fun _ ↦ .ok rfl

theorem changePassword_apart (currentPassword newPassword : Text) :
    Services.Auth.changePassword bcrypt settings call salt currentPassword newPassword
        (withTokens tokens db) =
      Prod.map (withTokens tokens) id
        (Services.Auth.changePassword bcrypt settings call salt currentPassword newPassword db) := by
  unfold Services.Auth.changePassword
  dsimp only
  split_ifs
  · rfl
  · cases enforcePasswordPolicy settings.passwordMinLength newPassword call.actor.user.username with
    | error violations => rfl
    | ok checked =>
      dsimp only
      cases hashPassword bcrypt salt newPassword with
      | error message => rfl
      | ok hashedPassword => rfl

theorem login_apart {now : Instant} {ipAddress : Option Text} (jti username password : Text) :
    login bcrypt settings now ipAddress jti username password (withTokens tokens db) =
      Prod.map (withTokens tokens) id
        (login bcrypt settings now ipAddress jti username password db) := by
  have hauth : authenticateUser bcrypt now ipAddress username password (withTokens tokens db) =
      Prod.map (withTokens tokens) id
        (authenticateUser bcrypt now ipAddress username password db) := by
    unfold authenticateUser
    rw [show (withTokens tokens db).userByUsername username = db.userByUsername username from rfl]
    cases db.userByUsername username with
    | none => rfl
    | some r =>
      dsimp only
      split_ifs <;> rfl
  unfold login
  rw [hauth]
  cases authenticateUser bcrypt now ipAddress username password db with | mk db outcome =>
  cases outcome with
  | none => rfl
  | some r => rfl

end Accounts

section Routes

theorem checked_apart {ε : Type} {of : ε → HttpError} {x y : Except ε Database}
    (h : Apart tokens x y) : Apart tokens (x.mapError of) (y.mapError of) :=
  Agree.mapError h fun _ _ he ↦ congrArg of he

theorem created_apart {ε : Type} {of : ε → HttpError} {x y : Except ε (ℕ × Database)}
    (h : CreatesApart tokens x y) : CreatesApart tokens (x.mapError of) (y.mapError of) :=
  Agree.mapError h fun _ _ he ↦ congrArg of he

/-- What a request for an edit answers and stores does not depend on the revoked tokens. -/
theorem commit_apart (op : Operation) :
    Agree Eq (fun r r' ↦ r' = (withTokens tokens r.1, r.2)) (op.commit db)
      (op.commit (withTokens tokens db)) := by
  cases op with
  | createCronJob sender body =>
    have h : CreatesApart tokens (CronJobs.createCronJob sender body db)
        (CronJobs.createCronJob sender body (withTokens tokens db)) := by
      refine Agree.bind (.same (requirePermission db sender .cronJobsCreate)) ?_
      rintro call _ rfl
      refine Agree.bind (.same (checkBody body.validate)) ?_
      rintro body _ rfl
      exact created_apart (createCronJob_apart body)
    refine Agree.bind h ?_
    rintro ⟨id, db⟩ _ rfl
    exact .ok rfl
  | updateCronJob sender id body =>
    have h : Apart tokens (CronJobs.updateCronJob sender id body db)
        (CronJobs.updateCronJob sender id body (withTokens tokens db)) := by
      refine Agree.bind (.same (requirePermission db sender .cronJobsUpdate)) ?_
      rintro call _ rfl
      refine Agree.bind (.same (checkBody body.validate)) ?_
      rintro body _ rfl
      exact checked_apart (updateCronJob_apart body)
    refine Agree.bind h ?_
    rintro db _ rfl
    exact .ok rfl
  | updateCronJobStatus sender id isActive =>
    have h : Apart tokens (CronJobs.updateCronJobStatus sender id isActive db)
        (CronJobs.updateCronJobStatus sender id isActive (withTokens tokens db)) := by
      refine Agree.bind (.same (requirePermission db sender .cronJobsEnable)) ?_
      rintro call _ rfl
      exact checked_apart (updateCronJobStatus_apart isActive)
    refine Agree.bind h ?_
    rintro db _ rfl
    exact .ok rfl
  | deleteCronJob sender id =>
    have h : Apart tokens (CronJobs.deleteCronJob sender id db)
        (CronJobs.deleteCronJob sender id (withTokens tokens db)) := by
      refine Agree.bind (.same (requirePermission db sender .cronJobsDelete)) ?_
      rintro call _ rfl
      exact checked_apart deleteCronJob_apart
    refine Agree.bind h ?_
    rintro db _ rfl
    exact .ok rfl
  | createScript sender host body =>
    have h : CreatesApart tokens (Operations.createScript sender host body db)
        (Operations.createScript sender host body (withTokens tokens db)) := by
      refine Agree.bind (.same (requirePermission db sender .scriptsCreate)) ?_
      rintro call _ rfl
      refine Agree.bind (.same (checkBody body.validate)) ?_
      rintro body _ rfl
      exact created_apart (createScript_apart body)
    refine Agree.bind h ?_
    rintro ⟨id, db⟩ _ rfl
    exact .ok rfl
  | updateScript sender host id body =>
    have h : Apart tokens (Operations.updateScript sender host id body db)
        (Operations.updateScript sender host id body (withTokens tokens db)) := by
      refine Agree.bind (.same (requirePermission db sender .scriptsUpdate)) ?_
      rintro call _ rfl
      refine Agree.bind (.same (checkBody body.validate)) ?_
      rintro body _ rfl
      exact checked_apart (updateScript_apart body)
    refine Agree.bind h ?_
    rintro db _ rfl
    exact .ok rfl
  | deleteScript sender id =>
    have h : Apart tokens (Operations.deleteScript sender id db)
        (Operations.deleteScript sender id (withTokens tokens db)) := by
      refine Agree.bind (.same (requirePermission db sender .scriptsDelete)) ?_
      rintro call _ rfl
      exact checked_apart deleteScript_apart
    refine Agree.bind h ?_
    rintro db _ rfl
    exact .ok rfl

variable {bearer : Bearer}

/-- A request about accounts depends on the revoked tokens only as far as it is accepted. -/
theorem createRoute_apart {body : UserCreate Text}
    (h : authenticated bearer (withTokens tokens db) = authenticated bearer db) :
    CreatesApart tokens (Api.Accounts.createUser bcrypt settings bearer salt body db)
      (Api.Accounts.createUser bcrypt settings bearer salt body (withTokens tokens db)) := by
  unfold Api.Accounts.createUser authorized
  rw [h]
  refine Agree.bind (.same _) ?_
  rintro call _ rfl
  refine Agree.bind (.same (checkBody body.validate)) ?_
  rintro body _ rfl
  exact created_apart (createUser_apart body)

theorem updateRoute_apart {body : UserUpdate Text}
    (h : authenticated bearer (withTokens tokens db) = authenticated bearer db) :
    Apart tokens (Api.Accounts.updateUser bcrypt settings bearer salt k body db)
      (Api.Accounts.updateUser bcrypt settings bearer salt k body (withTokens tokens db)) := by
  unfold Api.Accounts.updateUser authorized
  rw [h]
  refine Agree.bind (.same _) ?_
  rintro call _ rfl
  refine Agree.bind (.same (checkBody body.validate)) ?_
  rintro body _ rfl
  exact checked_apart (updateUser_apart body)

theorem deleteRoute_apart
    (h : authenticated bearer (withTokens tokens db) = authenticated bearer db) :
    Apart tokens (Api.Accounts.deleteUser bearer k db)
      (Api.Accounts.deleteUser bearer k (withTokens tokens db)) := by
  unfold Api.Accounts.deleteUser authorized
  rw [h]
  refine Agree.bind (.same _) ?_
  rintro call _ rfl
  exact checked_apart deleteUser_apart

theorem passwordRoute_apart {body : ChangePasswordRequest}
    (h : authenticated bearer (withTokens tokens db) = authenticated bearer db) :
    Api.Accounts.changePassword bcrypt settings bearer salt body (withTokens tokens db) =
      Prod.map (withTokens tokens) id
        (Api.Accounts.changePassword bcrypt settings bearer salt body db) := by
  unfold Api.Accounts.changePassword
  rw [h]
  split
  · rfl
  · rfl
  · rw [changePassword_apart]
    rfl

end Routes

end CronPanel.Api.TokensApart
