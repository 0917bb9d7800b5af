import CronPanel.Services.Users
import CronPanel.Api.Errors

namespace CronPanel.Api.Accounts

open Library.Strings Library.JsonData Library.Tables Core.Permissions Core.Security Data.Records Data.Repositories
open Schemas.Bodies Schemas.Accounts Services.Audit Services.CronJobs Services.Auth Services.Users Errors

/-- The sender of a request with a token signed by the panel. -/
structure Bearer where
  token : Payload
  now : Instant
  ipAddress : Option Text

def getTokenPayload (now : Instant) (token : Payload) (db : Database) : Except HttpError Payload :=
  match decodeToken now token with
  | none => .error notAuthenticated
  | some payload =>
    if payload.type ≠ accessTokenType then .error notAuthenticated
    else if payload.jti ≠ [] ∧ db.isRevoked payload.jti then .error notAuthenticated
    else .ok payload

def getCurrentUser (now : Instant) (token : Payload) (db : Database) : Except HttpError Actor := do
  let payload ← getTokenPayload now token db
  match loadUser db payload.sub with
  | none => .error notAuthenticated
  | some user =>
    if user.tokensInvalidBefore.any fun threshold ↦ ensureUtc payload.iat < threshold then
      .error notAuthenticated
    else .ok ⟨payload.sub, user⟩

/-- A request of a user that `get_current_user` accepts. -/
def authenticated (bearer : Bearer) (db : Database) : Except HttpError Call := do
  let actor ← getCurrentUser bearer.now bearer.token db
  .ok ⟨actor, bearer.now, bearer.ipAddress⟩

/-- `require_permissions` with one permission. -/
def authorized (bearer : Bearer) (permission : Permission) (db : Database) :
    Except HttpError Call := do
  let call ← authenticated bearer db
  if hasPermission call.actor.user.role permission then .ok call else .error forbidden

def invalidCredentials : HttpError :=
  .detail 401 "INVALID_CREDENTIALS".toList "Usuario o contraseña incorrectos.".toList

/-- `POST /api/auth/login` for an attempt that the rate limiter lets through. -/
def login (bcrypt : Bcrypt) (settings : Settings) (now : Instant) (ipAddress : Option Text)
    (jti username password : Text) (db : Database) : Database × Except HttpError Payload :=
  match authenticateUser bcrypt now ipAddress username password db with
  | (db, none) => (db, .error invalidCredentials)
  | (db, some (id, user)) =>
    let user := { user with lastLoginAt := some now, updatedAt := now }
    ({ db with users := db.users.set id user }, .ok (issueAccessToken settings now jti id user))

def logout (bearer : Bearer) (db : Database) : Except HttpError Database := do
  let call ← authenticated bearer db
  let payload := bearer.token
  let revoked : RevokedToken :=
    { jti := payload.jti
      userId := some call.actor.id
      revokedAt := call.now
      expiresAt := ensureUtc payload.exp }
  let db :=
    if payload.jti ≠ [] ∧ payload.exp ≠ 0 then
      { db with revokedTokens := (db.revokedTokens.insert revoked).2 }
    else db
  let db := recordEvent call.now
    { action := .logout
      userId := some call.actor.id
      username := some call.actor.user.username
      ipAddress := call.ipAddress
      resource := some "session".toList
      resourceId := some payload.jti } db
  .ok (db.purgeExpired call.now)

def ofPasswordError : PasswordError → HttpError
  | .wrongCurrent =>
    .detail 400 "INVALID_CURRENT_PASSWORD".toList "La contraseña actual no es correcta.".toList
  | .hashing message => .detail 400 "INVALID_CURRENT_PASSWORD".toList message
  | .weak violations => .details 422 "WEAK_PASSWORD".toList
      "La nueva contraseña no cumple la política de seguridad.".toList violations

def changePassword (bcrypt : Bcrypt) (settings : Settings) (bearer : Bearer) (salt : Text)
    (body : ChangePasswordRequest) (db : Database) : Database × Except HttpError Unit :=
  match authenticated bearer db, checkBody body.validate with
  | .error e, _ => (db, .error e)
  | .ok _, .error e => (db, .error e)
  | .ok call, .ok body =>
    let (db, outcome) :=
      Services.Auth.changePassword bcrypt settings call salt body.currentPassword body.newPassword db
    (db, outcome.mapError ofPasswordError)

def UserError.message : UserError → Text
  | .notFound | .lastAdminProtected | .integrity => []
  | .duplicateIdentity field => "El valor de '".toList ++ field ++ "' ya está en uso.".toList
  | .selfDelete => "No puede eliminar su propia cuenta.".toList
  | .cannotModifySelfRole => "No puede cambiar su propio rol.".toList
  | .unknownRole role => "Rol '".toList ++ role.name ++ "' no existe.".toList
  | .weakPassword _ => "Password does not comply with the policy.".toList
  | .hashing message => message

def ofCreateError (e : UserError) : HttpError :=
  match e with
  | .duplicateIdentity _ => .detail 409 "DUPLICATE_IDENTITY".toList (UserError.message e)
  | e =>
    let message := lower (UserError.message e)
    if "rol".toList <:+: message ∨ "role".toList <:+: message then
      .detail 422 "INVALID_ROLE".toList (UserError.message e)
    else .internal

def ofUpdateError (e : UserError) : HttpError :=
  match e with
  | .notFound => .detail 404 "USER_NOT_FOUND".toList "Usuario no encontrado.".toList
  | .duplicateIdentity _ => .detail 409 "DUPLICATE_IDENTITY".toList (UserError.message e)
  | .lastAdminProtected =>
    .detail 409 "LAST_ADMIN_PROTECTED".toList "No se puede modificar el último administrador activo.".toList
  | .cannotModifySelfRole => .detail 409 "SELF_ROLE_CHANGE".toList (UserError.message e)
  | e =>
    if "contraseña".toList <:+: lower (UserError.message e) then .internal
    else .detail 422 "VALIDATION_ERROR".toList (UserError.message e)

def ofDeleteError (e : UserError) : HttpError :=
  match e with
  | .notFound => .detail 404 "USER_NOT_FOUND".toList "Usuario no encontrado.".toList
  | .lastAdminProtected =>
    .detail 409 "LAST_ADMIN_PROTECTED".toList "No se puede eliminar el último administrador activo.".toList
  | .selfDelete => .detail 409 "SELF_DELETE_FORBIDDEN".toList (UserError.message e)
  | _ => .internal

/-- `POST /api/users`; the id is that of the new account. -/
def createUser (bcrypt : Bcrypt) (settings : Settings) (bearer : Bearer) (salt : Text)
    (body : UserCreate Text)
    (db : Database) : Except HttpError (ℕ × Database) := do
  let call ← authorized bearer .usersCreate db
  let body ← checkBody body.validate
  (Services.Users.createUser bcrypt settings call salt body db).mapError ofCreateError

def updateUser (bcrypt : Bcrypt) (settings : Settings) (bearer : Bearer) (salt : Text) (id : ℕ)
    (body : UserUpdate Text) (db : Database) : Except HttpError Database := do
  let call ← authorized bearer .usersUpdate db
  let body ← checkBody body.validate
  (Services.Users.updateUser bcrypt settings call salt id body db).mapError ofUpdateError

def deleteUser (bearer : Bearer) (id : ℕ) (db : Database) : Except HttpError Database := do
  let call ← authorized bearer .usersDelete db
  (Services.Users.deleteUser call id db).mapError ofDeleteError

end CronPanel.Api.Accounts
