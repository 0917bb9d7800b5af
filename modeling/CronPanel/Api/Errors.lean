import CronPanel.Services.Scripts

namespace CronPanel.Api.Errors

open Library.Strings Core.Permissions Data.Records Data.Repositories Cron.Validator
open Schemas.Bodies Execution.Policy Services.CronJobs Services.Scripts

inductive HttpError
  | detail (status : ℕ) (error message : Text)
  | details (status : ℕ) (error message : Text) (details : List Text)
  | invalidBody (errors : List FieldError)
  | internal
  deriving DecidableEq

def notAuthenticated : HttpError :=
  .detail 401 "NOT_AUTHENTICATED".toList "No autenticado o token inválido.".toList

def forbidden : HttpError :=
  .detail 403 "PERMISSION_DENIED".toList "No tiene permisos para realizar esta acción.".toList

def ofCronJobError : CronJobError → HttpError
  | .notFound => .detail 404 "CRON_JOB_NOT_FOUND".toList "Tarea no encontrada.".toList
  | .accessDenied => .detail 403 "CRON_JOB_FORBIDDEN".toList "No tiene permisos sobre esta tarea.".toList
  | .scriptReferenceNotFound => .detail 400 "SCRIPT_NOT_FOUND".toList "El script asignado no existe.".toList
  | .raised _ => .internal

def ofPathError (e : PathError) : HttpError :=
  match e.code, e.message with
  | some code, some message => .detail 400 code message
  | _, _ => .internal

def ofScriptError : ScriptError → HttpError
  | .notFound => .detail 404 "SCRIPT_NOT_FOUND".toList "Script no encontrado.".toList
  | .nameConflict =>
    .detail 409 "SCRIPT_NAME_CONFLICT".toList "Ya existe un script con ese nombre.".toList
  | .inUse => .detail 409 "SCRIPT_IN_USE".toList
      "El script está en uso por una tarea y no se puede eliminar.".toList
  | .path e => ofPathError e
  | .integrity => .internal

/-- `load_user_from_payload` for the account that the token names. -/
def loadUser (db : Database) (id : ℕ) : Option User := (db.users.get? id).filter User.isActive

/-- The sender of a request, whose token has been accepted for an account. -/
structure Sender where
  userId : ℕ
  now : Instant
  ipAddress : Option Text

/-- `require_permissions` with one permission. -/
def requirePermission (db : Database) (sender : Sender) (permission : Permission) :
    Except HttpError Call :=
  match loadUser db sender.userId with
  | none => .error notAuthenticated
  | some user =>
    if hasPermission user.role permission then
      .ok ⟨⟨sender.userId, user⟩, sender.now, sender.ipAddress⟩
    else .error forbidden

def checkBody {α : Type} (result : Except (List FieldError) α) : Except HttpError α :=
  result.mapError .invalidBody

end CronPanel.Api.Errors
