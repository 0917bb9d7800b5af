import CronPanel.Api.Operations
import CronPanel.Library.Sessions
import CronPanel.Services.RowSnapshots

namespace CronPanel.Api.Stages

open Library.Fallible Library.Sessions Core.Permissions Data.Records Data.Repositories
open Schemas.Bodies Execution.Policy Services.CronJobs Services.Scripts Services.RowSnapshots
open Errors Operations

/-- A request whose sender and body have been accepted. -/
inductive Accepted
  | createCronJob (body : CronJobCreate)
  | updateCronJob (id : ℕ) (body : CronJobUpdate)
  | updateCronJobStatus (id : ℕ) (isActive : Bool)
  | deleteCronJob (id : ℕ)
  | createScript (host : Host) (body : ScriptCreate)
  | updateScript (host : Host) (id : ℕ) (body : ScriptUpdate)
  | deleteScript (id : ℕ)

/-- A request that has read its row and has another check to make. -/
inductive Loaded
  | updateCronJob (id : ℕ) (body : CronJobUpdate) (job : CronJob)
  | updateScript (host : Host) (id : ℕ) (body : ScriptUpdate) (script : Script)
  | deleteScript (id : ℕ) (script : Script)

/-- A request that has made all its reads. -/
inductive Ready
  | createCronJob (body : CronJobCreate)
  | updateCronJob (id : ℕ) (body : CronJobUpdate) (job : CronJob)
  | updateCronJobStatus (id : ℕ) (isActive : Bool) (job : CronJob)
  | deleteCronJob (id : ℕ) (job : CronJob)
  | createScript (body : ScriptCreate) (path : Path)
  | updateScript (id : ℕ) (script edited : Script) (changes : List Change)
  | deleteScript (id : ℕ) (script : Script)

inductive Progress
  | accepted (request : Accepted)
  | loaded (request : Loaded)
  | ready (request : Ready)

structure Stage where
  call : Call
  progress : Progress

/-- The dependencies of a route, which look up the sender and check the body. -/
def accept (db : Database) : Operation → Except HttpError Stage
  | .createCronJob sender body => do
    let call ← requirePermission db sender .cronJobsCreate
    let body ← checkBody body.validate
    .ok ⟨call, .accepted (.createCronJob body)⟩
  | .updateCronJob sender id body => do
    let call ← requirePermission db sender .cronJobsUpdate
    let body ← checkBody body.validate
    .ok ⟨call, .accepted (.updateCronJob id body)⟩
  | .updateCronJobStatus sender id isActive => do
    let call ← requirePermission db sender .cronJobsEnable
    .ok ⟨call, .accepted (.updateCronJobStatus id isActive)⟩
  | .deleteCronJob sender id => do
    let call ← requirePermission db sender .cronJobsDelete
    .ok ⟨call, .accepted (.deleteCronJob id)⟩
  | .createScript sender host body => do
    let call ← requirePermission db sender .scriptsCreate
    let body ← checkBody body.validate
    .ok ⟨call, .accepted (.createScript host body)⟩
  | .updateScript sender host id body => do
    let call ← requirePermission db sender .scriptsUpdate
    let body ← checkBody body.validate
    .ok ⟨call, .accepted (.updateScript host id body)⟩
  | .deleteScript sender id => do
    let call ← requirePermission db sender .scriptsDelete
    .ok ⟨call, .accepted (.deleteScript id)⟩

/-- The first read of a request. -/
def Accepted.read (call : Call) (db : Database) : Accepted → Except HttpError Progress
  | createCronJob body => do
    (validateScriptReference db body.scriptId).mapError ofCronJobError
    .ok (.ready (.createCronJob body))
  | updateCronJob id body => do
    let job ← (getJobForWrite db id call.actor).mapError ofCronJobError
    .ok (.loaded (.updateCronJob id body job))
  | updateCronJobStatus id isActive => do
    let job ← (getJobForWrite db id call.actor).mapError ofCronJobError
    .ok (.ready (.updateCronJobStatus id isActive job))
  | deleteCronJob id => do
    let job ← (getJobForWrite db id call.actor).mapError ofCronJobError
    .ok (.ready (.deleteCronJob id job))
  | createScript host body => do
    let path ← (canonicalize host body.path).mapError ofScriptError
    if (db.scriptByName body.name).isSome then .error (ofScriptError .nameConflict)
    else .ok (.ready (.createScript body path))
  | updateScript host id body => do
    let script ← (getScript db id).mapError ofScriptError
    .ok (.loaded (.updateScript host id body script))
  | deleteScript id => do
    let script ← (getScript db id).mapError ofScriptError
    .ok (.loaded (.deleteScript id script))

/-- The second read of a request. -/
def Loaded.read (db : Database) : Loaded → Except HttpError Progress
  | updateCronJob id body job => do
    (validateScriptReference db body.scriptId).mapError ofCronJobError
    .ok (.ready (.updateCronJob id body job))
  | updateScript host id body script => do
    let (edited, changes) ← (editScript db host id body script).mapError ofScriptError
    .ok (.ready (.updateScript id script edited changes))
  | deleteScript id script =>
    if db.isReferencedByActiveJob id then .error (ofScriptError .inUse)
    else .ok (.ready (.deleteScript id script))

def Ready.commit (call : Call) (db : Database) : Ready → Option Database
  | createCronJob body => createCronJobFrom call body db
  | updateCronJob id body job => updateCronJobFrom call id body job db
  | updateCronJobStatus id isActive job => updateCronJobStatusFrom call id isActive job db
  | deleteCronJob id job => deleteCronJobFrom call id job db
  | createScript body path => createScriptFrom call body path db
  | updateScript id script edited changes => updateScriptFrom call id script edited changes db
  | deleteScript id script => deleteScriptFrom call id script db

def Progress.isReady : Progress → Bool
  | ready _ => true
  | _ => false

def Stage.read (db : Database) (stage : Stage) : Option Stage :=
  match stage.progress with
  | .accepted request => (request.read stage.call db).toOption.map fun next ↦ ⟨stage.call, next⟩
  | .loaded request => (request.read db).toOption.map fun next ↦ ⟨stage.call, next⟩
  | .ready _ => none

def Stage.commit (db : Database) (stage : Stage) : Option Database :=
  match stage.progress with
  | .ready request => request.commit stage.call db
  | _ => none

/-- The requests about jobs and scripts, each with a session of its own. -/
def handler : Handler Database Operation Stage where
  accept db op := (accept db op).toOption
  ready stage := stage.progress.isReady
  read db stage := stage.read db
  commit db stage := stage.commit db

section

variable {db : Database} {call : Call} {request : Ready} {n : ℕ}

theorem settle_accepted (accepted : Accepted) :
    handler.settle db (n + 1) ⟨call, .accepted accepted⟩ =
      (accepted.read call db).toOption.bind fun next ↦ handler.settle db n ⟨call, next⟩ := by
  change ((accepted.read call db).toOption.map fun next ↦ (⟨call, next⟩ : Stage)).bind _ = _
  rw [Option.bind_map]
  rfl

theorem settle_loaded (loaded : Loaded) :
    handler.settle db (n + 1) ⟨call, .loaded loaded⟩ =
      (loaded.read db).toOption.bind fun next ↦ handler.settle db n ⟨call, next⟩ := by
  change ((loaded.read db).toOption.map fun next ↦ (⟨call, next⟩ : Stage)).bind _ = _
  rw [Option.bind_map]
  rfl

theorem toOption_mapError {ε ε' α : Type} (x : Except ε α) (f : ε → ε') :
    (x.mapError f).toOption = x.toOption := by
  cases x <;> rfl

theorem toOption_bind {ε α β : Type} (x : Except ε α) (f : α → Except ε β) :
    (x >>= f).toOption = x.toOption.bind fun a ↦ (f a).toOption := by
  cases x <;> rfl

/-- The reads and the commit of an accepted request that has the database to itself. -/
def Accepted.alone (call : Call) (db : Database) (request : Accepted) : Option Database :=
  (handler.settle db 2 ⟨call, .accepted request⟩).bind (handler.commit db)

theorem alone_createCronJob (body : CronJobCreate) :
    (Accepted.createCronJob body).alone call db =
      (Services.CronJobs.createCronJob call body db).toOption.map Prod.snd := by
  rw [Accepted.alone, settle_accepted, Accepted.read, toOption_bind, toOption_mapError]
  cases href : validateScriptReference db body.scriptId with
  | error e =>
    rw [Services.CronJobs.createCronJob, href]
    rfl
  | ok u =>
    rw [← createCronJobFrom_checked href]
    rfl

theorem alone_updateCronJob (id : ℕ) (body : CronJobUpdate) :
    (Accepted.updateCronJob id body).alone call db =
      (Services.CronJobs.updateCronJob call id body db).toOption := by
  rw [Accepted.alone, settle_accepted, Accepted.read, toOption_bind, toOption_mapError]
  cases hjob : getJobForWrite db id call.actor with
  | error e =>
    rw [Services.CronJobs.updateCronJob, hjob]
    rfl
  | ok job =>
    cases href : validateScriptReference db body.scriptId with
    | error e =>
      rw [Services.CronJobs.updateCronJob, hjob, ok_bind, href]
      change ((handler.settle db 1 ⟨call, .loaded (.updateCronJob id body job)⟩).bind _) = _
      rw [settle_loaded, Loaded.read, href]
      rfl
    | ok u =>
      rw [← updateCronJobFrom_read hjob href]
      change ((handler.settle db 1 ⟨call, .loaded (.updateCronJob id body job)⟩).bind _) = _
      rw [settle_loaded, Loaded.read, href]
      rfl

theorem alone_updateCronJobStatus (id : ℕ) (isActive : Bool) :
    (Accepted.updateCronJobStatus id isActive).alone call db =
      (Services.CronJobs.updateCronJobStatus call id isActive db).toOption := by
  rw [Accepted.alone, settle_accepted, Accepted.read, toOption_bind, toOption_mapError]
  cases hjob : getJobForWrite db id call.actor with
  | error e =>
    rw [Services.CronJobs.updateCronJobStatus, hjob]
    rfl
  | ok job =>
    rw [← updateCronJobStatusFrom_read hjob]
    rfl

theorem alone_deleteCronJob (id : ℕ) :
    (Accepted.deleteCronJob id).alone call db =
      (Services.CronJobs.deleteCronJob call id db).toOption := by
  rw [Accepted.alone, settle_accepted, Accepted.read, toOption_bind, toOption_mapError]
  cases hjob : getJobForWrite db id call.actor with
  | error e =>
    rw [Services.CronJobs.deleteCronJob, hjob]
    rfl
  | ok job =>
    rw [← deleteCronJobFrom_read hjob]
    rfl

theorem alone_createScript (host : Host) (body : ScriptCreate) :
    (Accepted.createScript host body).alone call db =
      (Services.Scripts.createScript call host body db).toOption.map Prod.snd := by
  rw [Accepted.alone, settle_accepted, Accepted.read, toOption_bind, toOption_mapError]
  cases hpath : canonicalize host body.path with
  | error e =>
    rw [Services.Scripts.createScript, hpath]
    rfl
  | ok path =>
    cases hname : db.scriptByName body.name with
    | none =>
      rw [← createScriptFrom_free hpath hname]
      rfl
    | some other =>
      rw [Services.Scripts.createScript, hpath, ok_bind, hname]
      rfl

theorem alone_updateScript (host : Host) (id : ℕ) (body : ScriptUpdate) :
    (Accepted.updateScript host id body).alone call db =
      (Services.Scripts.updateScript call host id body db).toOption := by
  rw [Accepted.alone, settle_accepted, Accepted.read, toOption_bind, toOption_mapError]
  cases hscript : getScript db id with
  | error e =>
    rw [Services.Scripts.updateScript, hscript]
    rfl
  | ok script =>
    change ((handler.settle db 1 ⟨call, .loaded (.updateScript host id body script)⟩).bind _) = _
    rw [settle_loaded, Loaded.read]
    cases hedit : editScript db host id body script with
    | error e =>
      rw [Services.Scripts.updateScript, hscript, ok_bind, hedit]
      rfl
    | ok result =>
      obtain ⟨edited, changes⟩ := result
      rw [← updateScriptFrom_read hscript hedit]
      rfl

theorem alone_deleteScript (id : ℕ) :
    (Accepted.deleteScript id).alone call db =
      (Services.Scripts.deleteScript call id db).toOption := by
  rw [Accepted.alone, settle_accepted, Accepted.read, toOption_bind, toOption_mapError]
  cases hscript : getScript db id with
  | error e =>
    rw [Services.Scripts.deleteScript, hscript]
    rfl
  | ok script =>
    change ((handler.settle db 1 ⟨call, .loaded (.deleteScript id script)⟩).bind _) = _
    rw [settle_loaded, Loaded.read]
    cases hused : db.isReferencedByActiveJob id with
    | true =>
      rw [Services.Scripts.deleteScript, hscript, ok_bind, hused]
      rfl
    | false =>
      rw [← deleteScriptFrom_read hscript hused]
      rfl

theorem serve_accepted {op : Operation} {request : Accepted}
    (h : accept db op = .ok ⟨call, .accepted request⟩) :
    handler.serve 2 db op = request.alone call db := by
  change ((accept db op).toOption.bind (handler.settle db 2)).bind (handler.commit db) = _
  rw [h]
  rfl

theorem serve_refused {op : Operation} {e : HttpError} (h : accept db op = .error e) :
    handler.serve 2 db op = none := by
  change ((accept db op).toOption.bind (handler.settle db 2)).bind (handler.commit db) = _
  rw [h]
  rfl

/-- Serving a request one stage after another on a database of its own is serving it at once. -/
theorem serve_alone (op : Operation) :
    handler.serve 2 db op = (op.commit db).toOption.map Prod.fst := by
  cases op with
  | createCronJob sender body =>
    rw [Operation.commit, CronJobs.createCronJob]
    cases hcall : requirePermission db sender .cronJobsCreate with
    | error e => exact serve_refused (by rw [accept, hcall]; rfl)
    | ok call =>
      cases hbody : checkBody body.validate with
      | error e => exact serve_refused (by rw [accept, hcall, ok_bind, hbody]; rfl)
      | ok checked =>
        have haccept : accept db (.createCronJob sender body) =
            .ok ⟨call, .accepted (.createCronJob checked)⟩ := by
          rw [accept, hcall, ok_bind, hbody]
          rfl
        rw [serve_accepted haccept, alone_createCronJob, ok_bind, ok_bind, toOption_bind,
          toOption_mapError]
        cases Services.CronJobs.createCronJob call checked db <;> rfl
  | updateCronJob sender id body =>
    rw [Operation.commit, CronJobs.updateCronJob]
    cases hcall : requirePermission db sender .cronJobsUpdate with
    | error e => exact serve_refused (by rw [accept, hcall]; rfl)
    | ok call =>
      cases hbody : checkBody body.validate with
      | error e => exact serve_refused (by rw [accept, hcall, ok_bind, hbody]; rfl)
      | ok checked =>
        have haccept : accept db (.updateCronJob sender id body) =
            .ok ⟨call, .accepted (.updateCronJob id checked)⟩ := by
          rw [accept, hcall, ok_bind, hbody]
          rfl
        rw [serve_accepted haccept, alone_updateCronJob, ok_bind, ok_bind, toOption_bind,
          toOption_mapError]
        cases Services.CronJobs.updateCronJob call id checked db <;> rfl
  | updateCronJobStatus sender id isActive =>
    rw [Operation.commit, CronJobs.updateCronJobStatus]
    cases hcall : requirePermission db sender .cronJobsEnable with
    | error e => exact serve_refused (by rw [accept, hcall]; rfl)
    | ok call =>
      have haccept : accept db (.updateCronJobStatus sender id isActive) =
          .ok ⟨call, .accepted (.updateCronJobStatus id isActive)⟩ := by
        rw [accept, hcall]
        rfl
      rw [serve_accepted haccept, alone_updateCronJobStatus, ok_bind, toOption_bind,
        toOption_mapError]
      cases Services.CronJobs.updateCronJobStatus call id isActive db <;> rfl
  | deleteCronJob sender id =>
    rw [Operation.commit, CronJobs.deleteCronJob]
    cases hcall : requirePermission db sender .cronJobsDelete with
    | error e => exact serve_refused (by rw [accept, hcall]; rfl)
    | ok call =>
      have haccept : accept db (.deleteCronJob sender id) =
          .ok ⟨call, .accepted (.deleteCronJob id)⟩ := by
        rw [accept, hcall]
        rfl
      rw [serve_accepted haccept, alone_deleteCronJob, ok_bind, toOption_bind, toOption_mapError]
      cases Services.CronJobs.deleteCronJob call id db <;> rfl
  | createScript sender host body =>
    rw [Operation.commit, Operations.createScript]
    cases hcall : requirePermission db sender .scriptsCreate with
    | error e => exact serve_refused (by rw [accept, hcall]; rfl)
    | ok call =>
      cases hbody : checkBody body.validate with
      | error e => exact serve_refused (by rw [accept, hcall, ok_bind, hbody]; rfl)
      | ok checked =>
        have haccept : accept db (.createScript sender host body) =
            .ok ⟨call, .accepted (.createScript host checked)⟩ := by
          rw [accept, hcall, ok_bind, hbody]
          rfl
        rw [serve_accepted haccept, alone_createScript, ok_bind, ok_bind, toOption_bind,
          toOption_mapError]
        cases Services.Scripts.createScript call host checked db <;> rfl
  | updateScript sender host id body =>
    rw [Operation.commit, Operations.updateScript]
    cases hcall : requirePermission db sender .scriptsUpdate with
    | error e => exact serve_refused (by rw [accept, hcall]; rfl)
    | ok call =>
      cases hbody : checkBody body.validate with
      | error e => exact serve_refused (by rw [accept, hcall, ok_bind, hbody]; rfl)
      | ok checked =>
        have haccept : accept db (.updateScript sender host id body) =
            .ok ⟨call, .accepted (.updateScript host id checked)⟩ := by
          rw [accept, hcall, ok_bind, hbody]
          rfl
        rw [serve_accepted haccept, alone_updateScript, ok_bind, ok_bind, toOption_bind,
          toOption_mapError]
        cases Services.Scripts.updateScript call host id checked db <;> rfl
  | deleteScript sender id =>
    rw [Operation.commit, Operations.deleteScript]
    cases hcall : requirePermission db sender .scriptsDelete with
    | error e => exact serve_refused (by rw [accept, hcall]; rfl)
    | ok call =>
      have haccept : accept db (.deleteScript sender id) =
          .ok ⟨call, .accepted (.deleteScript id)⟩ := by
        rw [accept, hcall]
        rfl
      rw [serve_accepted haccept, alone_deleteScript, ok_bind, toOption_bind, toOption_mapError]
      cases Services.Scripts.deleteScript call id db <;> rfl

end

end CronPanel.Api.Stages
