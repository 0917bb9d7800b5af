import CronPanel.Core.PasswordPolicy
import CronPanel.Core.Security
import CronPanel.Services.CronJobs

namespace CronPanel.Services.Auth

open Library.Strings Library.JsonData Library.Tables Core.Permissions Core.PasswordPolicy Core.Security
open Data.Records Data.Repositories Audit CronJobs

/-- `_revoke_all_tokens_for_user`; the user comes back as its row is now. -/
def revokeAllTokensForUser (now : Instant) (id : ℕ) (user : User)
    (db : Database) : User × Database :=
  let revoked := { user with tokensInvalidBefore := some now, updatedAt := now }
  (revoked, recordEvent now
    { action := .tokenRevoked
      userId := some id
      username := some user.username
      resource := some "session".toList
      details := [("scope".toList, .text "all_sessions".toList)] }
    { db with users := db.users.set id revoked })

def recordLoginFailed (now : Instant) (ipAddress : Option Text) (userId : Option ℕ)
    (username reason : Text)
    (db : Database) : Database :=
  recordEvent now
    { action := .loginFailed
      userId
      username := some username
      ipAddress
      details := [("reason".toList, .text reason)] } db

def authenticateUser (bcrypt : Bcrypt) (now : Instant) (ipAddress : Option Text)
    (username password : Text)
    (db : Database) : Database × Option (ℕ × User) :=
  match db.userByUsername username with
  | none => (recordLoginFailed now ipAddress none username "unknown_user".toList db, none)
  | some (id, user) =>
    if !verifyPassword bcrypt password user.hashedPassword then
      (recordLoginFailed now ipAddress (some id) user.username "invalid_password".toList db, none)
    else if !user.isActive then
      (recordLoginFailed now ipAddress (some id) user.username "inactive_user".toList db, none)
    else
      (recordEvent now
        { action := .loginSuccess, userId := some id, username := some user.username,
          ipAddress } db,
        some (id, user))

def issueAccessToken (settings : Settings) (now : Instant) (jti : Text) (id : ℕ)
    (user : User) : Payload :=
  createAccessToken settings now jti id user.username user.role.name

/-- The errors of `change_password`; the first two are both a `ValueError`. -/
inductive PasswordError
  | wrongCurrent
  | hashing (message : Text)
  | weak (violations : List Text)
  deriving DecidableEq

/-- `change_password`; a wrong current password is recorded before the error is raised. -/
def changePassword (bcrypt : Bcrypt) (settings : Settings) (call : Call)
    (salt currentPassword newPassword : Text)
    (db : Database) : Database × Except PasswordError Unit :=
  let user := call.actor.user
  if !verifyPassword bcrypt currentPassword user.hashedPassword then
    (recordEvent call.now
      { action := .passwordChangeFailed
        userId := some call.actor.id
        username := some user.username
        ipAddress := call.ipAddress
        details := [("reason".toList, .text "wrong_current_password".toList)] } db, .error .wrongCurrent)
  else
    match enforcePasswordPolicy settings.passwordMinLength newPassword user.username with
    | .error violations => (db, .error (.weak violations))
    | .ok () =>
      match hashPassword bcrypt salt newPassword with
      | .error message => (db, .error (.hashing message))
      | .ok hashedPassword =>
        let (_, db) := revokeAllTokensForUser call.now call.actor.id { user with hashedPassword } db
        (recordEvent call.now
          { action := .passwordChange
            userId := some call.actor.id
            username := some user.username
            ipAddress := call.ipAddress } db, .ok ())

end CronPanel.Services.Auth
