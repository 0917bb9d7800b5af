import CronPanel.Api.CronJobs

namespace CronPanel.Api.Operations

open Library.Strings Library.Tables Core.Permissions Data.Records Data.Repositories Cron.Validator
open Schemas.Bodies Execution.Policy Scheduler.Triggers Scheduler.Service Errors

/-- `POST /api/scripts`, up to its commit; the id is that of the new script. -/
def createScript (sender : Sender) (host : Host) (body : ScriptCreate) (db : Database) :
    Except HttpError (ℕ × Database) := do
  let call ← requirePermission db sender .scriptsCreate
  let body ← checkBody body.validate
  (Services.Scripts.createScript call host body db).mapError ofScriptError

def updateScript (sender : Sender) (host : Host) (id : ℕ) (body : ScriptUpdate) (db : Database) :
    Except HttpError Database := do
  let call ← requirePermission db sender .scriptsUpdate
  let body ← checkBody body.validate
  (Services.Scripts.updateScript call host id body db).mapError ofScriptError

def deleteScript (sender : Sender) (id : ℕ) (db : Database) : Except HttpError Database := do
  let call ← requirePermission db sender .scriptsDelete
  (Services.Scripts.deleteScript call id db).mapError ofScriptError

inductive Notification
  | jobChanged (id : ℕ)
  | jobRemoved (id : ℕ)
  | resync
  | nothing
  deriving DecidableEq, Repr

inductive Operation
  | createCronJob (sender : Sender) (body : CronJobCreate)
  | updateCronJob (sender : Sender) (id : ℕ) (body : CronJobUpdate)
  | updateCronJobStatus (sender : Sender) (id : ℕ) (isActive : Bool)
  | deleteCronJob (sender : Sender) (id : ℕ)
  | createScript (sender : Sender) (host : Host) (body : ScriptCreate)
  | updateScript (sender : Sender) (host : Host) (id : ℕ) (body : ScriptUpdate)
  | deleteScript (sender : Sender) (id : ℕ)

/-- The database a request commits and the call its route makes next; a request that
fails commits nothing and makes no call. -/
def Operation.commit (db : Database) : Operation → Except HttpError (Database × Notification)
  | createCronJob sender body => do
    let (id, db) ← CronJobs.createCronJob sender body db
    .ok (db, .jobChanged id)
  | updateCronJob sender id body => do
    let db ← CronJobs.updateCronJob sender id body db
    .ok (db, .jobChanged id)
  | updateCronJobStatus sender id isActive => do
    let db ← CronJobs.updateCronJobStatus sender id isActive db
    .ok (db, if isActive then .jobChanged id else .jobRemoved id)
  | deleteCronJob sender id => do
    let db ← CronJobs.deleteCronJob sender id db
    .ok (db, .jobRemoved id)
  | createScript sender host body => do
    let (_, db) ← Operations.createScript sender host body db
    .ok (db, .nothing)
  | updateScript sender host id body => do
    let db ← Operations.updateScript sender host id body db
    .ok (db, .resync)
  | deleteScript sender id => do
    let db ← Operations.deleteScript sender id db
    .ok (db, .nothing)

/-- The database after a request, as the next one finds it. -/
def Operation.serve (db : Database) (op : Operation) : Database :=
  match op.commit db with
  | .ok (db, _) => db
  | .error _ => db

def step (db : Database) (op : Operation) : Option Database := some (op.serve db)

def Notification.deliver {A : Apscheduler} (db : Database) (s : CronScheduler A) :
    Notification → CronScheduler A × Except PyError Unit
  | jobChanged id => notifyJobChanged db id s
  | jobRemoved id => (notifyJobRemoved id s, .ok ())
  | resync => Scheduler.Service.resync db s
  | nothing => (s, .ok ())

end CronPanel.Api.Operations
