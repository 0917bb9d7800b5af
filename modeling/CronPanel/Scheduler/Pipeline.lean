import CronPanel.Library.Run
import CronPanel.Api.Executions
import CronPanel.Api.Frames
import CronPanel.Scheduler.Eligibility
import CronPanel.Scheduler.Jobs

namespace CronPanel.Scheduler.Pipeline

open Library.Tables Library.Fallible Library.Run Data.Records Data.Repositories Execution.Policy
open Execution.Executor Services.Executions Api.Errors Api.Operations Api.Executions Api.Frames Jobs

/-- Where a call of `_run` stands: before its first commit, or between its two commits. -/
inductive Stage
  | starting (call : RunCall)
  | running (run : Running)

def Stage.advance (env : Environment) (db : Database) :
    Stage → Except ExecutionError (Database × Option Stage)
  | starting call => do
    let started ← startRun env call db
    .ok (started.2, some (running started.1))
  | running run => do
    let db ← finishRun env run db
    .ok (db, none)

/-- Where a call of `run_scheduled_job` stands after its read of the job. -/
inductive Fire
  | checking (job : CronJob)
  | calling (job : CronJob)
  | inRun (stage : Stage)

def Stage.call : Stage → RunCall
  | starting call => call
  | running run => run.call

def Fire.advance (env : Environment) (jobId : ℕ) (db : Database) : Fire → Database × Option Fire
  | checking job =>
    if db.hasRunningExecution jobId then (recordSkip env.now jobId job alreadyRunning db, none)
    else (db, some (calling job))
  | calling job =>
    match db.liveJob jobId with
    | none => (recordFailure env.now jobId job .notFound db, none)
    | some _ => (db, some (inRun (.starting (scheduledCall jobId job))))
  | inRun stage =>
    match stage.advance env db with
    | .ok (db, rest) => (db, rest.map inRun)
    | .error e => (recordFailure env.now jobId stage.call.job e db, none)

/-- The database with the scheduled runs under way, at most one for a job, and the manual
runs under way. -/
structure World where
  db : Database
  fires : Table ℕ Fire
  requests : Table ℕ Stage

/-- What can happen next. A step of a run can also fail on the database, which ends the run
with nothing committed. A crash is followed by a restart. -/
inductive Action
  | edit (op : Operation)
  | fire (jobId : ℕ)
  | execute (sender : Sender) (jobId : ℕ)
  | advanceFire (env : Environment) (jobId : ℕ)
  | advanceRequest (env : Environment) (k : ℕ)
  | failFire (jobId : ℕ)
  | failRequest (k : ℕ)
  | restart (now : Instant)

def step (w : World) : Action → Option World
  | .edit op =>
    match op.commit w.db with
    | .ok (db, _) => some { w with db }
    | .error _ => some w
  | .fire jobId =>
    match w.fires.get? jobId with
    | some _ => none
    | none =>
      match w.db.liveJob jobId with
      | none => some w
      | some job =>
        some (if job.isActive then { w with fires := w.fires.set jobId (.checking job) } else w)
  | .execute sender jobId =>
    match executeCall sender jobId w.db with
    | .ok call => some { w with requests := (w.requests.insert (.starting call)).2 }
    | .error _ => some w
  | .advanceFire env jobId =>
    (w.fires.get? jobId).map fun fire ↦
      let (db, rest) := fire.advance env jobId w.db
      { w with db, fires := rest.elim (w.fires.erase jobId) (w.fires.set jobId) }
  | .advanceRequest env k =>
    (w.requests.get? k).map fun stage ↦
      match stage.advance env w.db with
      | .ok (db, rest) =>
        { w with db, requests := rest.elim (w.requests.erase k) (w.requests.set k) }
      | .error _ => { w with requests := w.requests.erase k }
  | .failFire jobId => (w.fires.get? jobId).map fun _ ↦ { w with fires := w.fires.erase jobId }
  | .failRequest k => (w.requests.get? k).map fun _ ↦ { w with requests := w.requests.erase k }
  | .restart now => some ⟨w.db.purgeExpired now, .empty, .empty⟩

def begin (db : Database) : World := ⟨db, .empty, .empty⟩

theorem executeCall_ok {sender : Sender} {jobId : ℕ} {db : Database} {call : RunCall}
    (h : executeCall sender jobId db = .ok call) :
    call.trigger = .manual ∧ (db.cronJobs.get? call.jobId).isSome := by
  obtain ⟨sent, -, h⟩ := bind_eq_ok.mp h
  obtain ⟨job, hjob, -, rfl⟩ := manualCall_eq_ok (mapError_eq_ok.mp h)
  exact ⟨rfl, Option.isSome_iff_exists.mpr ⟨job, (Database.liveJob_eq_some.mp hjob).1⟩⟩

theorem step_advanceFire {w w' : World} {env : Environment} {jobId : ℕ}
    (h : step w (.advanceFire env jobId) = some w') : ∃ fire, w.fires.get? jobId = some fire ∧
      w' = ⟨(fire.advance env jobId w.db).1,
        (fire.advance env jobId w.db).2.elim (w.fires.erase jobId)
          (w.fires.set jobId), w.requests⟩ := by
  obtain ⟨fire, hfire, rfl⟩ := Option.map_eq_some_iff.mp h
  exact ⟨fire, hfire, rfl⟩

section Sample

def sampleEnvironment : Environment where
  now := 0
  host :=
    { win32 := false
      sysExecutable := "/usr/bin/python3".toList
      scriptsDir := ["srv".toList, "scripts".toList]
      resolve := fun t ↦
        if t = "/srv/scripts/backup.py".toList then
          .ok ["srv".toList, "scripts".toList, "backup.py".toList]
        else .error .fileNotFound
      isFile := fun _ ↦ true
      executable := fun _ ↦ false }
  outputMaxChars := 65536
  durationMs := 0
  process := fun _ ↦ .completed 0 [] []

end Sample

section Alone

variable {env : Environment} {db : Database} {fires : Table ℕ Fire} {requests : Table ℕ Stage}
    {k jobId : ℕ}

theorem step_request {stage : Stage} {db' : Database} {rest : Option Stage}
    (h : stage.advance env db = .ok (db', rest)) :
    step ⟨db, fires, requests.set k stage⟩ (.advanceRequest env k) =
      some ⟨db', fires, rest.elim (requests.erase k) (requests.set k)⟩ := by
  cases rest <;>
    simp only [step, Table.get?_set_self, Option.map_some, h, Option.elim, Table.set_set,
      Table.erase_set]

theorem step_request_error {stage : Stage} {e : ExecutionError}
    (h : stage.advance env db = .error e) :
    step ⟨db, fires, requests.set k stage⟩ (.advanceRequest env k) =
      some ⟨db, fires, requests.erase k⟩ := by
  simp only [step, Table.get?_set_self, Option.map_some, h, Table.erase_set]

theorem step_fire {fire : Fire} {db' : Database} {rest : Option Fire}
    (h : fire.advance env jobId db = (db', rest)) :
    step ⟨db, fires.set jobId fire, requests⟩ (.advanceFire env jobId) =
      some ⟨db', rest.elim (fires.erase jobId) (fires.set jobId), requests⟩ := by
  cases rest <;>
    simp only [step, Table.get?_set_self, Option.map_some, h, Option.elim, Table.set_set,
      Table.erase_set]

theorem advance_starting {call : RunCall} {running : Running} {db' : Database}
    (h : startRun env call db = .ok (running, db')) :
    (Stage.starting call).advance env db = .ok (db', some (.running running)) := by
  simp only [Stage.advance, h, ok_bind]

theorem advance_running {running : Running} {db' : Database}
    (h : finishRun env running db = .ok db') :
    (Stage.running running).advance env db = .ok (db', none) := by
  simp only [Stage.advance, h, ok_bind]

/-- The steps of a manual run that nothing comes between are its call of `_run`. -/
theorem reaches_run (call : RunCall) :
    Reaches step (.advanceRequest env k) ⟨db, fires, requests.set k (.starting call)⟩
      ⟨(run env call db).1, fires, requests.erase k⟩ := by
  unfold run
  cases hs : startRun env call db with
  | error e =>
    have hadvance : (Stage.starting call).advance env db = .error e := by
      rw [Stage.advance, hs]
      rfl
    exact .single (step_request_error hadvance)
  | ok started =>
    obtain ⟨running, db₁⟩ := started
    refine .head (step_request (advance_starting hs)) ?_
    dsimp only [Option.elim]
    cases hf : finishRun env running db₁ with
    | error e =>
      have hadvance : (Stage.running running).advance env db₁ = .error e := by
        rw [Stage.advance, hf]
        rfl
      exact .single (step_request_error hadvance)
    | ok db₂ => exact .single (step_request (advance_running hf))

theorem recordFailure_finish {running : Running} {e : ExecutionError}
    (h : finishRun env running db = .error e)
    (now : Instant) (job : CronJob) : recordFailure now jobId job e db = db := by
  obtain ⟨error, he⟩ | he := finishRun_error h
  · rw [he]
    rfl
  · rw [he]
    rfl

/-- The steps of a scheduled run that nothing comes between are `run_scheduled_job`. -/
theorem reaches_runScheduledJob {job : CronJob} (hjob : db.liveJob jobId = some job)
    (hactive : job.isActive) :
    Reaches step (.advanceFire env jobId) ⟨db, fires.set jobId (.checking job), requests⟩
      ⟨runScheduledJob env jobId db, fires.erase jobId, requests⟩ := by
  unfold runScheduledJob
  simp only [hjob, hactive, Bool.not_true, Bool.false_eq_true, if_false]
  by_cases hrunning : db.hasRunningExecution jobId
  · rw [if_pos hrunning]
    have hskip :
        (Fire.checking job).advance env jobId db =
        (recordSkip env.now jobId job alreadyRunning db, none) := by
      rw [Fire.advance, if_pos hrunning]
    exact .single (step_fire hskip)
  · rw [if_neg hrunning]
    have hcheck : (Fire.checking job).advance env jobId db = (db, some (.calling job)) := by
      rw [Fire.advance, if_neg hrunning]
    have hcall : (Fire.calling job).advance env jobId db =
        (db, some (.inRun (.starting (scheduledCall jobId job)))) := by
      simp only [Fire.advance, hjob]
    refine .head (step_fire hcheck) (.head (step_fire hcall) ?_)
    simp only [runScheduledCronJob, hjob, run, Option.elim]
    cases hs : startRun env (scheduledCall jobId job) db with
    | error e =>
      have hstart : (Fire.inRun (.starting (scheduledCall jobId job))).advance env jobId db =
          (recordFailure env.now jobId job e db, none) := by
        simp only [Fire.advance, Stage.advance, hs]
        rfl
      exact .single (step_fire hstart)
    | ok started =>
      obtain ⟨running, db₁⟩ := started
      have hstart : (Fire.inRun (.starting (scheduledCall jobId job))).advance env jobId db =
          (db₁, some (.inRun (.running running))) := by
        simp only [Fire.advance, advance_starting hs, Option.map_some]
      refine .head (step_fire hstart) ?_
      dsimp only [Option.elim]
      cases hf : finishRun env running db₁ with
      | error e =>
        have hfail : (Fire.inRun (.running running)).advance env jobId db₁ = (db₁, none) := by
          simp only [Fire.advance, Stage.advance, hf]
          exact Prod.ext (recordFailure_finish hf _ _) rfl
        simp only [recordFailure_finish hf]
        exact .single (step_fire hfail)
      | ok db₂ =>
        have hfinish : (Fire.inRun (.running running)).advance env jobId db₁ = (db₂, none) := by
          simp only [Fire.advance, advance_running hf, Option.map_none]
        exact .single (step_fire hfinish)

end Alone

end CronPanel.Scheduler.Pipeline
