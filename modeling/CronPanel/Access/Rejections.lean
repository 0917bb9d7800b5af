import CronPanel.Access.Launches
import CronPanel.Scheduler.Eligibility

namespace CronPanel.Access.Rejections

open Library.Strings Library.Tables Library.Fallible Core.Permissions Data.Records Data.Repositories
open Execution.Policy Execution.Executor Services.CronJobs Services.Executions Scheduler.Jobs Scheduler.Eligibility Launches

/-- The two calls that run a job: `run_cron_job`, and `run_scheduled_cron_job` in a session that has
read the job before. -/
inductive Entry
  | manual (call : Call)
  | scheduled (job : CronJob)

/-- The call of `_run` that an entry makes. -/
def Entry.call (db : Database) (jobId : ℕ) : Entry → Except ExecutionError RunCall
  | manual call => manualCall db call jobId
  | scheduled job =>
    (db.liveJob jobId).elim (.error .notFound) fun _ ↦ .ok (scheduledCall jobId job)

def Entry.run (env : Environment) (jobId : ℕ) (db : Database) :
    Entry → Database × Except ExecutionError ℕ
  | manual call => runCronJob env call jobId db
  | scheduled job => runScheduledCronJob env jobId job db

/-- What an entry gives to `subprocess.run`, when it comes to that. -/
def Entry.launch (environ : Text → Option Text) (env : Environment) (jobId : ℕ) (db : Database)
    (entry : Entry) : Option Launch :=
  (entry.call db jobId).toOption.bind fun call ↦ runLaunch environ env call db

/-- The errors that turn a run away; the others escape from it. -/
def Rejection : ExecutionError → Bool
  | .path (.raised _) | .unexpected => false
  | _ => true

/-- The job passes every check up to the type of the file, which has no launcher. -/
def TypeRefused (env : Environment) (jobId : ℕ) (db : Database) (entry : Entry) : Prop :=
  ∃ call resolved, entry.call db jobId = .ok call ∧ call.job.isActive ∧
    resolveScript env.host db call.job = .ok resolved ∧
    ∃ e, validateSupportedScriptType env.host resolved.path = .error e

/-- A run that leaves the executions and the trail as they were and starts no process. -/
def NoTrace (environ : Text → Option Text) (env : Environment) (jobId : ℕ) (db : Database)
    (entry : Entry) : Prop :=
  entry.launch environ env jobId db = none ∧
    (entry.run env jobId db).1.executions = db.executions ∧
    (entry.run env jobId db).1.auditLogs = db.auditLogs

section

variable {environ : Text → Option Text} {env : Environment} {jobId : ℕ} {db : Database}
    {entry : Entry} {call : RunCall} {running : Running}

theorem Entry.run_of_call (h : entry.call db jobId = .ok call) :
    entry.run env jobId db = Services.Executions.run env call db := by
  cases entry with
  | manual actor =>
    change runCronJob env actor jobId db = _
    unfold runCronJob
    rw [show manualCall db actor jobId = .ok call from h]
  | scheduled job =>
    change runScheduledCronJob env jobId job db = _
    unfold runScheduledCronJob
    unfold Entry.call at h
    cases hjob : db.liveJob jobId with
    | none =>
      rw [hjob] at h
      cases h
    | some found =>
      rw [hjob] at h
      cases h
      rfl

theorem Entry.run_of_error {e : ExecutionError} (h : entry.call db jobId = .error e) :
    entry.run env jobId db = (db, .error e) := by
  cases entry with
  | manual actor =>
    change runCronJob env actor jobId db = _
    unfold runCronJob
    rw [show manualCall db actor jobId = .error e from h]
  | scheduled job =>
    change runScheduledCronJob env jobId job db = _
    unfold runScheduledCronJob
    unfold Entry.call at h
    cases hjob : db.liveJob jobId with
    | none =>
      rw [hjob] at h
      cases h
      rfl
    | some found =>
      rw [hjob] at h
      cases h

theorem Entry.launch_of_call (h : entry.call db jobId = .ok call) :
    entry.launch environ env jobId db = runLaunch environ env call db := by
  unfold Entry.launch
  rw [h]
  rfl

theorem validateSupportedScriptType_error {host : Host} {path : Path} {e : PathError}
    (h : validateSupportedScriptType host path = .error e) : e = .unsupportedType := by
  unfold validateSupportedScriptType at h
  split_ifs at h
  all_goals exact (Except.error.inj h).symm

/-- After its first commit a run raises an error of the policy only for the type of its file. -/
theorem finishRun_path_iff {e : PathError} : finishRun env running db = .error (.path e) ↔
    validateSupportedScriptType env.host running.path = .error e := by
  rw [← executeScript_refused_iff env.host running.path env.outputMaxChars env.durationMs env.process]
  unfold finishRun
  cases executeScript env.host running.path env.outputMaxChars env.durationMs env.process with
  | error failure =>
    cases failure with
    | path refused =>
      change Except.error (ExecutionError.path refused) = _ ↔ _
      simp
    | unexpected =>
      change Except.error ExecutionError.unexpected = _ ↔ _
      simp
  | ok result =>
    refine iff_of_false ?_ (by simp)
    intro h
    simp only [Except.mapError, ok_bind] at h
    split at h <;> cases h

/-- A call that is turned away before its first commit leaves nothing. -/
theorem run_of_startRun_error (environ : Text → Option Text) {e : ExecutionError}
    (h : startRun env call db = .error e) :
    Services.Executions.run env call db = (db, .error e) ∧
      runLaunch environ env call db = none := by
  unfold Services.Executions.run runLaunch
  rw [h]
  exact ⟨rfl, rfl⟩

theorem noTrace_of_rejection (hsupported : ¬TypeRefused env jobId db entry) {e : ExecutionError}
    (h : (entry.run env jobId db).2 = .error e) (hrejection : Rejection e) :
    NoTrace environ env jobId db entry := by
  unfold NoTrace
  cases hcall : entry.call db jobId with
  | error refused =>
    rw [Entry.run_of_error hcall]
    unfold Entry.launch
    rw [hcall]
    exact ⟨rfl, rfl, rfl⟩
  | ok call =>
    rw [Entry.launch_of_call hcall]
    rw [Entry.run_of_call hcall] at h ⊢
    cases hstart : startRun env call db with
    | error refused =>
      obtain ⟨hrun, hlaunch⟩ := run_of_startRun_error environ hstart
      rw [hrun]
      exact ⟨hlaunch, rfl, rfl⟩
    | ok started =>
      exfalso
      obtain ⟨running, db₁⟩ := started
      unfold Services.Executions.run at h
      rw [hstart] at h
      dsimp only at h
      cases hfinish : finishRun env running db₁ with
      | ok db₂ =>
        rw [hfinish] at h
        cases h
      | error raised =>
        rw [hfinish] at h
        obtain rfl := Except.error.inj h
        obtain ⟨error, rfl⟩ | rfl := finishRun_error hfinish
        · obtain ⟨resolved, hactive, hresolved, rfl, -⟩ := startRun_eq_ok hstart
          exact hsupported ⟨call, resolved, hcall, hactive, hresolved, error,
            finishRun_path_iff.mp hfinish⟩
        · cases hrejection

/-- The refusal of a type comes after the first commit. -/
theorem trace_of_typeRefused (h : TypeRefused env jobId db entry) :
    (entry.run env jobId db).2 = .error (.path .unsupportedType) ∧
      (entry.run env jobId db).1.executions ≠ db.executions := by
  obtain ⟨call, resolved, hcall, hactive, hresolved, e, htype⟩ := h
  obtain rfl := validateSupportedScriptType_error htype
  obtain ⟨⟨running, db₁⟩, hstart⟩ := startRun_of_starts ⟨hactive, resolved, hresolved⟩
  obtain ⟨resolved', -, hresolved', hrunning, hdb₁⟩ := startRun_eq_ok hstart
  obtain rfl := Except.ok.inj (hresolved.symm.trans hresolved')
  have hfinish : finishRun env running db₁ = .error (.path .unsupportedType) := by
    rw [hrunning]
    exact finishRun_path_iff.mpr htype
  have hrun : Services.Executions.run env call db = (db₁, .error (.path .unsupportedType)) := by
    unfold Services.Executions.run
    rw [hstart]
    dsimp only
    rw [hfinish]
  rw [Entry.run_of_call hcall, hrun]
  refine ⟨rfl, ?_⟩
  intro hsame
  have hnew : db₁.executions.get? db.executions.nextId =
      some (startedExecution env.now call resolved.id) := by
    rw [hdb₁]
    exact Table.get?_set_self _ _ _
  rw [show db₁.executions = db.executions from hsame, Table.get?_nextId] at hnew
  cases hnew

/-- A run that is turned away leaves no trace, unless it is for a type of file without a
launcher. -/
theorem rejections_leave_no_trace_iff (environ : Text → Option Text) (env : Environment)
    (jobId : ℕ) (db : Database) (entry : Entry) :
    (∀ e, (entry.run env jobId db).2 = .error e → Rejection e →
        NoTrace environ env jobId db entry) ↔
      ¬TypeRefused env jobId db entry := by
  constructor
  · intro h hrefused
    obtain ⟨herror, hne⟩ := trace_of_typeRefused hrefused
    obtain ⟨-, hsame, -⟩ := h _ herror rfl
    exact hne hsame
  · intro hsupported e h hrejection
    exact noTrace_of_rejection hsupported h hrejection

end

section Sample

/-- The script of the job is a text file without the right to run it. -/
def sampleEnvironment : Environment where
  now := 0
  host :=
    { win32 := false
      sysExecutable := "/usr/bin/python3".toList
      scriptsDir := ["scripts".toList]
      resolve _ := .ok ["scripts".toList, "notes.txt".toList]
      isFile _ := true
      executable _ := false }
  outputMaxChars := 100
  durationMs := 0
  process _ := .completed 0 [] []

def sampleActor : Call := ⟨⟨1, sampleUser⟩, 0, none⟩

/-- The file is refused, and the execution that the run has begun stays. -/
theorem unsupported_type_leaves_trace :
    ¬∀ e, ((Entry.manual sampleActor).run sampleEnvironment 1 sample).2 = .error e → Rejection e →
      NoTrace (fun _ ↦ none) sampleEnvironment 1 sample (.manual sampleActor) := by
  intro h
  obtain ⟨-, hsame, -⟩ := h (.path .unsupportedType) rfl rfl
  have hcount := congrArg (fun t ↦ t.rows.length) hsame
  have hone :
      ((Entry.manual sampleActor).run sampleEnvironment 1 sample).1.executions.rows.length = 1 :=
    by decide
  have hzero : sample.executions.rows.length = 0 := rfl
  omega

end Sample

end CronPanel.Access.Rejections
