import CronPanel.Schemas.Accounts
import CronPanel.Services.Auth

namespace CronPanel.Services.Users

open Library.Strings Library.JsonData Library.Tables Library.Fallible
open Core.Permissions Core.PasswordPolicy Core.Security Data.Records Data.Repositories Schemas.Accounts
open Audit CronJobs Auth

/-- The errors of the service, and what escapes it from the hashing library and the database. -/
inductive UserError
  | notFound
  | duplicateIdentity (field : Text)
  | lastAdminProtected
  | selfDelete
  | cannotModifySelfRole
  | unknownRole (role : Role)
  | weakPassword (violations : List Text)
  | hashing (message : Text)
  | integrity
  deriving DecidableEq

def recordUserEvent (call : Call) (action : AuditAction) (targetId : ℕ)
    (details : List (Text × Json))
    (db : Database) : Database :=
  recordEvent call.now
    { action
      userId := some targetId
      username := some call.actor.user.username
      resource := some "user".toList
      resourceId := some (decimal targetId)
      ipAddress := call.ipAddress
      details } db

def getUserOrRaise (db : Database) (userId : ℕ) : Except UserError User :=
  (db.users.get? userId).elim (.error .notFound) .ok

def ensureNotLastActiveAdmin (db : Database) (targetUser : User) : Except UserError Unit :=
  if targetUser.role ≠ .admin ∨ !targetUser.isActive then .ok ()
  else if db.countActiveAdmins ≤ 1 then .error .lastAdminProtected
  else .ok ()

/-- The check made before an administrator is changed or deleted. -/
def protectLastAdmin (db : Database) (user : User) : Except UserError Unit :=
  if user.role = .admin then ensureNotLastActiveAdmin db user else .ok ()

def getRole (db : Database) (role : Role) : Except UserError Role :=
  if role ∈ db.roles then .ok role else .error (.unknownRole role)

def newPassword (bcrypt : Bcrypt) (settings : Settings) (salt password username : Text) :
    Except UserError Text := do
  (enforcePasswordPolicy settings.passwordMinLength password username).mapError .weakPassword
  (hashPassword bcrypt salt password).mapError .hashing

def createUser (bcrypt : Bcrypt) (settings : Settings) (call : Call) (salt : Text)
    (body : UserCreate Role)
    (db : Database) : Except UserError (ℕ × Database) :=
  if (db.userByUsername body.username).isSome then .error (.duplicateIdentity "username".toList)
  else if (db.userByEmail body.email).isSome then .error (.duplicateIdentity "email".toList)
  else do
    let hashedPassword ← newPassword bcrypt settings salt body.password body.username
    let role ← getRole db body.role
    let (id, users) := db.users.insert
      { username := body.username
        email := body.email
        hashedPassword
        isActive := true
        role
        createdAt := call.now
        updatedAt := call.now
        lastLoginAt := none
        tokensInvalidBefore := none }
    .ok (id, recordUserEvent call .userCreate id
      [("created_username".toList, .text body.username), ("role".toList, .text body.role.name)]
      { db with users })

/-- The part of `update_user` for the field `is_active`; each part hands on the row as it
has been flushed. -/
def setActive (call : Call) (targetId : ℕ) (isActive : Option Bool) (user : User) (db : Database) :
    Except UserError (User × Database) :=
  match isActive with
  | none => .ok (user, db)
  | some isActive =>
    if isActive = user.isActive then .ok (user, db)
    else do
      protectLastAdmin db user
      let user := { user with isActive, updatedAt := call.now }
      let db := recordUserEvent call (if isActive then .userActivate else .userDeactivate) targetId []
        { db with users := db.users.set targetId user }
      .ok (if isActive then (user, db) else revokeAllTokensForUser call.now targetId user db)

def setRole (call : Call) (targetId : ℕ) (role : Option Role) (user : User) (db : Database) :
    Except UserError (User × Database) :=
  match role with
  | none => .ok (user, db)
  | some role =>
    if role = user.role then .ok (user, db)
    else if call.actor.id = targetId then .error .cannotModifySelfRole
    else do
      protectLastAdmin db user
      let new ← getRole db role
      let (changed, db) := revokeAllTokensForUser call.now targetId { user with role := new } db
      .ok (changed, recordUserEvent call .roleChange targetId
        [("old_role".toList, .text user.role.name), ("new_role".toList, .text role.name)] db)

def setEmail (call : Call) (targetId : ℕ) (email : Option Text) (user : User) (db : Database) :
    Except UserError (User × Database) :=
  match email with
  | none => .ok (user, db)
  | some email =>
    if email = user.email then .ok (user, db)
    else if (db.userByEmail email).any fun existing ↦ existing.1 ≠ targetId then
      .error (.duplicateIdentity "email".toList)
    else
      let user := { user with email, updatedAt := call.now }
      .ok (user, recordUserEvent call .userUpdate targetId [("changed_field".toList, .text "email".toList)]
        { db with users := db.users.set targetId user })

def setPassword (bcrypt : Bcrypt) (settings : Settings) (call : Call) (salt : Text) (targetId : ℕ)
    (password : Option Text) (user : User) (db : Database) : Except UserError (User × Database) :=
  match password with
  | none => .ok (user, db)
  | some password => do
    let hashedPassword ← newPassword bcrypt settings salt password user.username
    let (changed, db) := revokeAllTokensForUser call.now targetId { user with hashedPassword } db
    .ok (changed, recordUserEvent call .passwordReset targetId [] db)

def updateUser (bcrypt : Bcrypt) (settings : Settings) (call : Call) (salt : Text) (targetId : ℕ)
    (body : UserUpdate Role) (db : Database) : Except UserError Database := do
  let user ← getUserOrRaise db targetId
  let (user, db) ← setActive call targetId body.isActive user db
  let (user, db) ← setRole call targetId body.role user db
  let (user, db) ← setEmail call targetId body.email user db
  let (_, db) ← setPassword bcrypt settings call salt targetId body.password user db
  .ok db

/-- `delete_user`: the session clears the references of the scripts and of the cron jobs to
the account, and the owner of a cron job must not be null. -/
def deleteUser (call : Call) (targetId : ℕ) (db : Database) : Except UserError Database := do
  let user ← getUserOrRaise db targetId
  protectLastAdmin db user
  if call.actor.id = targetId then .error .selfDelete
  else if db.cronJobs.rows.any fun r ↦ r.2.ownerId = targetId then .error .integrity
  else
    .ok (recordUserEvent call .userDelete targetId [("deleted_username".toList, .text user.username)]
      { db with
        users := db.users.erase targetId
        scripts := db.scripts.map fun script ↦
          if script.createdBy = some targetId then { script with createdBy := none, updatedAt := call.now }
          else script })

section

variable {bcrypt : Bcrypt} {settings : Settings} {call : Call} {salt : Text} {targetId : ℕ}
  {db db' : Database}

theorem getUserOrRaise_eq_ok {user : User} :
    getUserOrRaise db targetId = .ok user ↔ db.users.get? targetId = some user := by
  unfold getUserOrRaise
  cases db.users.get? targetId with
  | none => exact iff_of_false (fun h ↦ by cases h) (fun h ↦ by cases h)
  | some found =>
    exact ⟨fun h ↦ congrArg some (Except.ok.inj h), fun h ↦ congrArg _ (Option.some.inj h)⟩

/-- The row of a new account. -/
def createdUser (now : Instant) (body : UserCreate Role) (hashedPassword : Text) (role : Role) :
    User where
  username := body.username
  email := body.email
  hashedPassword
  isActive := true
  role
  createdAt := now
  updatedAt := now
  lastLoginAt := none
  tokensInvalidBefore := none

theorem createUser_eq_ok {body : UserCreate Role} {id : ℕ}
    (h : createUser bcrypt settings call salt body db = .ok (id, db')) :
    ∃ hashedPassword role, newPassword bcrypt settings salt body.password body.username =
        .ok hashedPassword ∧
      getRole db body.role = .ok role ∧ id = db.users.nextId ∧
      db' = recordUserEvent call .userCreate id
        [("created_username".toList, .text body.username), ("role".toList, .text body.role.name)]
        { db with users := db.users.set id (createdUser call.now body hashedPassword role) } := by
  unfold createUser at h
  split_ifs at h
  obtain ⟨hashedPassword, hhashed, h⟩ := bind_eq_ok.mp h
  obtain ⟨role, hrole, h⟩ := bind_eq_ok.mp h
  cases h
  exact ⟨hashedPassword, role, hhashed, hrole, rfl, rfl⟩

theorem deleteUser_eq_ok (h : deleteUser call targetId db = .ok db') :
    ∃ user, db.users.get? targetId = some user ∧ call.actor.id ≠ targetId ∧
      ¬(db.cronJobs.rows.any fun r ↦ r.2.ownerId = targetId) ∧
      db' = recordUserEvent call .userDelete targetId
        [("deleted_username".toList, .text user.username)]
        { db with
          users := db.users.erase targetId
          scripts := db.scripts.map fun script ↦
            if script.createdBy = some targetId then
              { script with createdBy := none, updatedAt := call.now }
            else script } := by
  obtain ⟨user, huser, h⟩ := bind_eq_ok.mp h
  obtain ⟨⟨⟩, -, h⟩ := bind_eq_ok.mp h
  split_ifs at h with hself howns
  cases h
  exact ⟨user, getUserOrRaise_eq_ok.mp huser, hself, howns, rfl⟩

/-- The four parts of an update work on the row one after the other. -/
theorem updateUser_eq_ok {body : UserUpdate Role}
    (h : updateUser bcrypt settings call salt targetId body db = .ok db') :
    ∃ old u₁ db₁ u₂ db₂ u₃ db₃ u₄, db.users.get? targetId = some old ∧
      setActive call targetId body.isActive old db = .ok (u₁, db₁) ∧
      setRole call targetId body.role u₁ db₁ = .ok (u₂, db₂) ∧
      setEmail call targetId body.email u₂ db₂ = .ok (u₃, db₃) ∧
      setPassword bcrypt settings call salt targetId body.password u₃ db₃ = .ok (u₄, db') := by
  obtain ⟨old, hold, h⟩ := bind_eq_ok.mp h
  obtain ⟨⟨u₁, db₁⟩, h₁, h⟩ := bind_eq_ok.mp h
  obtain ⟨⟨u₂, db₂⟩, h₂, h⟩ := bind_eq_ok.mp h
  obtain ⟨⟨u₃, db₃⟩, h₃, h⟩ := bind_eq_ok.mp h
  obtain ⟨⟨u₄, db₄⟩, h₄, h⟩ := bind_eq_ok.mp h
  cases h
  exact ⟨old, u₁, db₁, u₂, db₂, u₃, db₃, u₄, getUserOrRaise_eq_ok.mp hold, h₁, h₂, h₃, h₄⟩

end

end CronPanel.Services.Users
