import CronPanel.Core.PasswordPolicy
import CronPanel.Core.Security
import CronPanel.Data.Repositories
import CronPanel.Library.Fallible

namespace CronPanel.Data.InitDb

open Library.Strings Library.Tables Library.Fallible Core.Permissions Core.PasswordPolicy
open Core.Security Records Repositories

/-- The variables that `main` reads, and what `getpass` would be given. -/
structure Environ where
  adminUsername : Text
  adminEmail : Text
  adminPassword : Text
  typed : Text := []
  deriving DecidableEq

/-- The password of the administrator, asked for where the variable is not set. -/
def Environ.password (environ : Environ) : Text :=
  if environ.adminPassword = [] then environ.typed else environ.adminPassword

inductive InitError
  | unset
  | noPassword
  | weakPassword (violations : List Text)
  | rolesNotSeeded
  | hashing (message : Text)
  | integrity
  deriving DecidableEq

/-- `SYSTEM_ROLES`, in the order of their names. -/
def systemRoles : List Role := [.admin, .operator, .viewer]

def seedRole (roles : List Role) (role : Role) : List Role :=
  if role ∈ roles then roles else roles ++ [role]

def seedRoles (db : Database) : Database := { db with roles := systemRoles.foldl seedRole db.roles }

def adminUser (now : Instant) (username email hashedPassword : Text) : User where
  username
  email
  hashedPassword
  isActive := true
  role := .admin
  createdAt := now
  updatedAt := now
  lastLoginAt := none
  tokensInvalidBefore := none

section

variable (bcrypt : Bcrypt) (settings : Settings) (salt : Text) (now : Instant)

/-- `create_admin_user`; the database refuses an email that is in use. -/
def createAdminUser (username email password : Text) (db : Database) :
    Except InitError Database :=
  let violations := validatePassword settings.passwordMinLength password username
  if violations ≠ [] then .error (.weakPassword violations)
  else if Role.admin ∉ db.roles then .error .rolesNotSeeded
  else if (db.userByUsername username).isSome then .ok db
  else do
    let hashedPassword ← (hashPassword bcrypt salt password).mapError .hashing
    if (db.userByEmail email).isSome then .error .integrity
    else .ok { db with users := (db.users.insert (adminUser now username email hashedPassword)).2 }

/-- `run_initialization`; the roles are committed before the account is created. -/
def runInitialization (username email password : Text) (db : Database) :
    Database × Except InitError Unit :=
  let db := seedRoles db
  match createAdminUser bcrypt settings salt now username email password db with
  | .ok db => (db, .ok ())
  | .error e => (db, .error e)

def main (environ : Environ) (db : Database) : Database × Except InitError Unit :=
  if environ.adminUsername = [] ∨ environ.adminEmail = [] then (db, .error .unset)
  else if environ.password = [] then (db, .error .noPassword)
  else runInitialization bcrypt settings salt now environ.adminUsername environ.adminEmail
    environ.password db

end

theorem seedRoles_roles {db : Database} (h : db.roles = [] ∨ db.roles = systemRoles) :
    (seedRoles db).roles = systemRoles := by
  unfold seedRoles
  rcases h with h | h <;> rw [h] <;> rfl

section

variable {bcrypt : Bcrypt} {settings : Settings} {salt : Text} {now : Instant} {db db' : Database}

/-- The account is there already, or it is added. -/
theorem createAdminUser_ok {username email password : Text}
    (h : createAdminUser bcrypt settings salt now username email password db = .ok db') :
    validatePassword settings.passwordMinLength password username = [] ∧
      ((db.userByUsername username).isSome ∧ db' = db ∨
        ∃ hashedPassword, db.userByUsername username = none ∧ db.userByEmail email = none ∧
          hashPassword bcrypt salt password = .ok hashedPassword ∧
            db' = { db with
              users := db.users.set db.users.nextId
                (adminUser now username email hashedPassword) }) := by
  unfold createAdminUser at h
  dsimp only at h
  split_ifs at h with hweak hroles hnamed hemail
  · cases h
    exact ⟨not_not.mp hweak, .inl ⟨hnamed, rfl⟩⟩
  · obtain ⟨hashedPassword, -, h⟩ := bind_eq_ok.mp h
    cases h
  · obtain ⟨hashedPassword, hhashed, h⟩ := bind_eq_ok.mp h
    cases h
    refine ⟨not_not.mp hweak, .inr ⟨hashedPassword, ?_, ?_, mapError_eq_ok.mp hhashed, rfl⟩⟩
    · exact Option.not_isSome_iff_eq_none.mp hnamed
    · exact Option.not_isSome_iff_eq_none.mp hemail

/-- What a failed initialization may have left behind is the roles. -/
theorem main_error {environ : Environ} {e : InitError}
    (h : main bcrypt settings salt now environ db = (db', .error e)) :
    db' = db ∨ db' = seedRoles db := by
  unfold main at h
  split_ifs at h with hunset hmissing
  · cases h
    exact .inl rfl
  · cases h
    exact .inl rfl
  · unfold runInitialization at h
    dsimp only at h
    split at h
    · cases h
    · cases h
      exact .inr rfl

theorem main_ok_iff {environ : Environ} :
    main bcrypt settings salt now environ db = (db', .ok ()) ↔
      (environ.adminUsername ≠ [] ∧ environ.adminEmail ≠ [] ∧ environ.password ≠ []) ∧
        createAdminUser bcrypt settings salt now environ.adminUsername environ.adminEmail
          environ.password (seedRoles db) = .ok db' := by
  unfold main
  split_ifs with hunset hmissing
  · refine iff_of_false (fun h ↦ by cases h) ?_
    rintro ⟨⟨husername, hemail, -⟩, -⟩
    exact hunset.elim husername hemail
  · exact iff_of_false (fun h ↦ by cases h) fun h ↦ h.1.2.2 hmissing
  · rw [not_or] at hunset
    rw [and_iff_right ⟨hunset.1, hunset.2, hmissing⟩]
    unfold runInitialization
    dsimp only
    cases createAdminUser bcrypt settings salt now environ.adminUsername environ.adminEmail
        environ.password (seedRoles db) with
    | error e => exact iff_of_false (fun h ↦ by cases h) (fun h ↦ by cases h)
    | ok created =>
      constructor
      · intro h
        cases h
        rfl
      · intro h
        cases h
        rfl

end

end CronPanel.Data.InitDb
