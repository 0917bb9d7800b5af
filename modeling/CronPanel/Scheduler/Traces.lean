import CronPanel.Scheduler.Eligibility
import CronPanel.Scheduler.Pipeline
import CronPanel.Services.Trail

namespace CronPanel.Scheduler.Traces

open Library.Strings Library.JsonData Library.Tables Library.Fallible Data.Records Data.Repositories
open Execution.Policy Execution.Executor Services.Audit Services.Executions Services.Trail Jobs Eligibility

def isSkipOf (jobId : ℕ) (entry : AuditLog) : Bool :=
  entry.resource = some "cron_job".toList && entry.resourceId = some (decimal jobId)

/-- The entries that say that a scheduled run of a job was skipped. -/
def skips (jobId : ℕ) (db : Database) : List AuditLog :=
  (logged (fun action ↦ action = .executionSkipped) db).filter (isSkipOf jobId)

/-- A fire has added one execution of the job, whatever has become of it, and nothing else to
the executions. -/
def Executes (jobId : ℕ) (db db' : Database) : Prop :=
  ∃ k e, db'.executions.rows = db.executions.rows ++ [(k, e)] ∧ e.cronJobId = some jobId ∧
    e.trigger = .scheduled

/-- A fire has left one trace: an execution of the job that has come to its end, or an entry
that says that it was skipped. -/
def Traced (jobId : ℕ) (db db' : Database) : Prop :=
  (∃ k e, db'.executions.rows = db.executions.rows ++ [(k, e)] ∧ e.cronJobId = some jobId ∧
      e.trigger = .scheduled ∧ e.status ≠ .running ∧ skips jobId db' = skips jobId db) ∨
    (db'.executions = db.executions ∧ ∃ entry, skips jobId db' = skips jobId db ++ [entry])

def linkedScript (jobId : ℕ) (db : Database) : Option Script :=
  (db.cronJobs.get? jobId).bind fun job ↦ job.scriptId.bind db.scripts.get?

/-- The scheduler would arm the job, and no run of it is under way. -/
def Due (jobId : ℕ) (db : Database) : Prop :=
  (∃ job, (jobId, job) ∈ db.listEligibleForScheduling) ∧ db.hasRunningExecution jobId = false

def Runnable (env : Environment) (jobId : ℕ) (db : Database) : Prop :=
  Due jobId db ∧ ∃ script, linkedScript jobId db = some script ∧
    Succeeds (canonicalizeScriptPath env.host script.path)

/-- The script of a job that is due does not pass the path policy, or it cannot be launched. -/
def Lost (env : Environment) (jobId : ℕ) (db : Database) : Prop :=
  Due jobId db ∧ ∃ script, linkedScript jobId db = some script ∧
    ∀ path, canonicalizeScriptPath env.host script.path = .ok path → Raises env path

/-- A fire of a live job leaves one trace, an execution where the job can be run; any other
fire leaves nothing. -/
structure Kept (env : Environment) (jobId : ℕ) (db : Database) : Prop where
  traced : ∀ job, db.liveJob jobId = some job → job.isActive →
    Traced jobId db (runScheduledJob env jobId db)
  executes : ∀ job, db.liveJob jobId = some job → job.isActive →
    (Executes jobId db (runScheduledJob env jobId db) ↔ Runnable env jobId db)
  discarded : (∀ job, db.liveJob jobId = some job → job.isActive = false) →
    runScheduledJob env jobId db = db

section Entries

variable (now : Instant) (jobId : ℕ) (db : Database)

theorem skips_other {event : Event} (h : event.action ≠ .executionSkipped) :
    skips jobId (recordEvent now event db) = skips jobId db := by
  rw [skips, logged_other (decide_eq_false h), skips]

theorem skips_recordSkip (job : CronJob) (reason : Text) :
    ∃ entry, skips jobId (recordSkip now jobId job reason db) = skips jobId db ++ [entry] := by
  obtain ⟨event, hevent, haction, hresource, hid⟩ :
      ∃ event, recordSkip now jobId job reason db = recordEvent now event db ∧
      event.action = .executionSkipped ∧ event.resource = some "cron_job".toList ∧
      event.resourceId = some (decimal jobId) := ⟨_, rfl, rfl, rfl, rfl⟩
  have habout : isSkipOf jobId (event.entry now) := by
    rw [isSkipOf, show (event.entry now).resource = _ from hresource,
      show (event.entry now).resourceId = _ from hid]
    simp
  refine ⟨event.entry now, ?_⟩
  rw [hevent, skips, logged_recordEvent, if_pos (decide_eq_true haction), List.filter_append,
    List.filter_cons_of_pos habout]
  rfl

end Entries

section Outcomes

variable {env : Environment} {jobId : ℕ} {db db' : Database} {job : CronJob}

/-- The script of a job, where the scheduler may start it. -/
theorem due_iff (hjob : db.liveJob jobId = some job) (hactive : job.isActive) : Due jobId db ↔
    (∃ id script, job.scriptId = some id ∧ db.scripts.get? id = some script ∧
      script.isDeleted = false ∧ script.isEnabled) ∧ db.hasRunningExecution jobId = false := by
  obtain ⟨hget, hdeleted⟩ := Database.liveJob_eq_some.mp hjob
  refine and_congr_left fun _ ↦ ?_
  constructor
  · intro h
    obtain ⟨job', h⟩ := h
    obtain ⟨hget', heligible⟩ := Database.mem_listEligible.mp h
    obtain rfl := Option.some.inj (hget.symm.trans hget')
    exact (eligible_iff.mp heligible).2.2
  · intro h
    exact ⟨job, Database.mem_listEligible.mpr ⟨hget, eligible_iff.mpr ⟨hdeleted, hactive, h⟩⟩⟩

/-- What a fire of a live job comes to. -/
inductive Outcome (env : Environment) (jobId : ℕ) (db db' : Database) : Prop
  | skipped (due : ¬Due jobId db) (executions : db'.executions = db.executions)
      (entry : ∃ entry, skips jobId db' = skips jobId db ++ [entry])
  | refused (lost : Lost env jobId db) (runnable : ¬Runnable env jobId db) (same : db' = db)
  | stuck (lost : Lost env jobId db) (runnable : Runnable env jobId db)
      (rows : ∃ k e, db'.executions.rows = db.executions.rows ++ [(k, e)] ∧
        e.cronJobId = some jobId ∧ e.trigger = .scheduled ∧ e.status = .running)
  | ended (lost : ¬Lost env jobId db) (runnable : Runnable env jobId db)
      (rows : ∃ k e, db'.executions.rows = db.executions.rows ++ [(k, e)] ∧
        e.cronJobId = some jobId ∧ e.trigger = .scheduled ∧ e.status ≠ .running)
      (entries : skips jobId db' = skips jobId db)

theorem rows_ne_append {rows : List (ℕ × Execution)} {r : ℕ × Execution} : rows ≠ rows ++ [r] := by
  intro h
  have hlength := congrArg List.length h
  rw [List.length_append, List.length_singleton] at hlength
  omega

/-- The four ends of a fire, read as the traces it leaves. -/
theorem Outcome.traced_iff (h : Outcome env jobId db db') :
    (Traced jobId db db' ↔ ¬Lost env jobId db) ∧
      (Executes jobId db db' ↔ Runnable env jobId db) := by
  have hnone (he : db'.executions = db.executions) :
      ¬∃ k e, db'.executions.rows = db.executions.rows ++ [(k, e)] := by
    intro hrows
    obtain ⟨k, e, hrows⟩ := hrows
    rw [he] at hrows
    exact rows_ne_append hrows
  cases h with
  | skipped due executions entry =>
    refine ⟨iff_of_true (.inr ⟨executions, entry⟩) fun hlost ↦ due hlost.1,
      iff_of_false ?_ fun hr ↦ due hr.1⟩
    intro hexecutes
    obtain ⟨k, e, hrows, -⟩ := hexecutes
    exact hnone executions ⟨k, e, hrows⟩
  | refused lost runnable same =>
    subst same
    refine ⟨iff_of_false ?_ (not_not.mpr lost), iff_of_false ?_ runnable⟩
    · intro htraced
      obtain ⟨k, e, hrows, -⟩ | ⟨-, entry, hskips⟩ := htraced
      · exact rows_ne_append hrows
      · have hlength := congrArg List.length hskips
        rw [List.length_append, List.length_singleton] at hlength
        omega
    · intro hexecutes
      obtain ⟨k, e, hrows, -⟩ := hexecutes
      exact rows_ne_append hrows
  | stuck lost runnable rows =>
    obtain ⟨k, e, hrows, hjob, htrigger, hrunning⟩ := rows
    refine ⟨iff_of_false ?_ (not_not.mpr lost), iff_of_true ⟨k, e, hrows, hjob, htrigger⟩ runnable⟩
    intro htraced
    obtain ⟨k', e', hrows', -, -, hended, -⟩ | ⟨hsame, -⟩ := htraced
    · rw [hrows, List.append_cancel_left_eq, List.singleton_inj, Prod.mk.injEq] at hrows'
      exact hended (hrows'.2 ▸ hrunning)
    · exact hnone hsame ⟨k, e, hrows⟩
  | ended lost runnable rows entries =>
    obtain ⟨k, e, hrows, hjob, htrigger, hended⟩ := rows
    exact ⟨iff_of_true (.inl ⟨k, e, hrows, hjob, htrigger, hended, entries⟩) lost,
      iff_of_true ⟨k, e, hrows, hjob, htrigger⟩ runnable⟩

theorem skipped_of_reason {e : ExecutionError} {reason : Text} (h : skipReason e = some reason)
    (hdue : ¬Due jobId db)
    (now : Instant) : Outcome env jobId db (recordFailure now jobId job e db) := by
  rw [recordFailure, h]
  exact .skipped hdue rfl (skips_recordSkip now jobId db job reason)

theorem linkedScript_eq {id : ℕ} {script : Script} (hjob : db.liveJob jobId = some job)
    (hid : job.scriptId = some id)
    (hscript : db.scripts.get? id = some script) : linkedScript jobId db = some script := by
  rw [linkedScript, (Database.liveJob_eq_some.mp hjob).1, Option.bind_some, hid,
    Option.bind_some, hscript]

/-- A fire whose script passes the path policy is lost when its process cannot be launched. -/
theorem lost_iff {script : Script} {path : Path} (hdue : Due jobId db)
    (hlinked : linkedScript jobId db = some script)
    (hpath : canonicalizeScriptPath env.host script.path = .ok path) :
    Lost env jobId db ↔ Raises env path := by
  constructor
  · intro h
    obtain ⟨-, script', hlinked', hraises⟩ := h
    obtain rfl := Option.some.inj (hlinked.symm.trans hlinked')
    exact hraises path hpath
  · intro h
    refine ⟨hdue, script, hlinked, ?_⟩
    intro path' hpath'
    obtain rfl := Except.ok.inj (hpath.symm.trans hpath')
    exact h

/-- A run of a job that is due, and whose script passes the path policy, ends in an execution
unless the script cannot be launched. -/
theorem run_outcome {id : ℕ} {script : Script} {path : Path} (hjob : db.liveJob jobId = some job)
    (hactive : job.isActive) (hdue : Due jobId db) (hid : job.scriptId = some id)
    (hscript : db.scripts.get? id = some script)
    (hpath : canonicalizeScriptPath env.host script.path = .ok path)
    (hresolved : resolveScript env.host db job = .ok ⟨id, script, path⟩) :
    Outcome env jobId db (match run env (scheduledCall jobId job) db with
      | (db, .ok _) => db
      | (db, .error e) => recordFailure env.now jobId job e db) := by
  have hget := (Database.liveJob_eq_some.mp hjob).1
  have hlinked := linkedScript_eq hjob hid hscript
  have hrunnable : Runnable env jobId db := ⟨hdue, script, hlinked, path, hpath⟩
  have hlost : Lost env jobId db ↔ Raises env path := lost_iff hdue hlinked hpath
  have hstarts : Starts env (scheduledCall jobId job) db := ⟨hactive, _, hresolved⟩
  obtain ⟨⟨running, db₁⟩, hs⟩ := startRun_of_starts hstarts
  unfold run
  rw [hs]
  dsimp only
  obtain ⟨resolved, -, hresolved', hrunning, hdb⟩ := startRun_eq_ok hs
  obtain rfl := Except.ok.inj (hresolved.symm.trans hresolved')
  have hraises : (∃ e, finishRun env running db₁ = .error e) ↔ Raises env path := by
    subst hrunning hdb
    exact finishRun_error_iff (Table.get?_set_self _ _ _) hget hscript
  have hrows (e : Execution) : (db.executions.set db.executions.nextId e).rows =
      db.executions.rows ++ [(db.executions.nextId, e)] := Table.rows_insert db.executions e
  cases hf : finishRun env running db₁ with
  | error e =>
    dsimp only
    rw [Pipeline.recordFailure_finish hf, hdb]
    exact .stuck (hlost.mpr (hraises.mp ⟨e, hf⟩)) hrunnable ⟨_, _, hrows _, rfl, rfl, rfl⟩
  | ok db₂ =>
    have hends : ¬Lost env jobId db := by
      intro h
      obtain ⟨e, hf'⟩ := hraises.mpr (hlost.mp h)
      rw [hf] at hf'
      cases hf'
    obtain ⟨result, row, job', script', -, hrow, -, -, rfl⟩ := finishRun_eq_ok hf
    subst hrunning hdb
    obtain rfl := Option.some.inj ((Table.get?_set_self _ _ _).symm.trans hrow)
    let row := startedExecution env.now (scheduledCall jobId job) id
    refine .ended hends hrunnable ⟨db.executions.nextId, finishedExecution env.now result row,
      ?_, rfl, rfl, finishedExecution_status _ _ _⟩ ?_
    · exact (congrArg Table.rows (Table.set_set _ _ _ _)).trans (hrows _)
    · have haction : (finalStatus result).2 ≠ .executionSkipped := by
        unfold finalStatus
        split_ifs <;> decide
      have hstarted : AuditAction.executionStarted ≠ .executionSkipped := by decide
      exact (skips_other env.now jobId _ haction).trans (skips_other env.now jobId _ hstarted)

theorem fire_outcome (hjob : db.liveJob jobId = some job) (hactive : job.isActive) :
    Outcome env jobId db (runScheduledJob env jobId db) := by
  unfold runScheduledJob
  simp only [hjob, hactive, Bool.not_true, Bool.false_eq_true, if_false]
  cases hrunning : db.hasRunningExecution jobId with
  | true =>
    rw [if_pos rfl]
    refine .skipped ?_ rfl (skips_recordSkip _ _ _ _ _)
    intro hdue
    rw [hdue.2] at hrunning
    cases hrunning
  | false =>
    rw [if_neg Bool.false_ne_true]
    simp only [runScheduledCronJob, hjob]
    by_cases havailable : ∃ id script, job.scriptId = some id ∧ db.scripts.get? id = some script ∧
        script.isDeleted = false ∧ script.isEnabled
    · have hdue := (due_iff hjob hactive).mpr ⟨havailable, hrunning⟩
      obtain ⟨id, script, hid, hscript, hkept, henabled⟩ := havailable
      have hresolved := resolveScript_available env.host hid hscript hkept henabled
      cases hpath : canonicalizeScriptPath env.host script.path with
      | error e =>
        rw [hpath] at hresolved
        have hstart : startRun env (scheduledCall jobId job) db = .error (.path e) := by
          unfold startRun scheduledCall
          dsimp only
          rw [hactive, hresolved]
          rfl
        have hlinked := linkedScript_eq hjob hid hscript
        have hno (script' : Script) (h : linkedScript jobId db = some script') (path : Path) :
            canonicalizeScriptPath env.host script'.path ≠ .ok path := by
          obtain rfl := Option.some.inj (hlinked.symm.trans h)
          rw [hpath]
          intro h
          cases h
        rw [run, hstart]
        refine .refused ⟨hdue, script, hlinked,
          fun path h ↦ absurd h (hno script hlinked path)⟩ ?_ rfl
        intro hrunnable
        obtain ⟨-, script', hlinked', path, h⟩ := hrunnable
        exact hno script' hlinked' path h
      | ok path =>
        rw [hpath] at hresolved
        exact run_outcome hjob hactive hdue hid hscript hpath hresolved
    · have hdue : ¬Due jobId db := fun hdue ↦ havailable ((due_iff hjob hactive).mp hdue).1
      have hstart {e : ExecutionError} (h : resolveScript env.host db job = .error e) :
          startRun env (scheduledCall jobId job) db = .error e := by
        unfold startRun scheduledCall
        dsimp only
        rw [hactive, h]
        rfl
      obtain hlink | hscript := resolveScript_unavailable havailable
      · rw [run, hstart hlink]
        exact skipped_of_reason rfl hdue _
      · rw [run, hstart hscript]
        exact skipped_of_reason rfl hdue _

end Outcomes

/-- A scheduled fire keeps to its traces exactly when the job is not due, or its script passes
the path policy and can be launched. -/
theorem fire_kept_iff (env : Environment) (jobId : ℕ) (db : Database) :
    Kept env jobId db ↔ ¬Lost env jobId db := by
  constructor
  · intro h hlost
    obtain ⟨⟨⟨job, hmem⟩, -⟩, -⟩ := id hlost
    obtain ⟨hget, heligible⟩ := Database.mem_listEligible.mp hmem
    obtain ⟨hdeleted, hactive, -⟩ := eligible_iff.mp heligible
    have hjob := Database.liveJob_eq_some.mpr ⟨hget, hdeleted⟩
    exact (fire_outcome hjob hactive).traced_iff.1.mp (h.traced job hjob hactive) hlost
  · intro hlost
    refine ⟨?_, ?_, ?_⟩
    · intro job hjob hactive
      exact (fire_outcome hjob hactive).traced_iff.1.mpr hlost
    · intro job hjob hactive
      exact (fire_outcome hjob hactive).traced_iff.2
    · intro hpaused
      unfold runScheduledJob
      cases hjob : db.liveJob jobId with
      | none => rfl
      | some job =>
        dsimp only
        rw [hpaused job hjob]
        rfl

section Sample

/-- A machine on which the file of the sample script is gone. -/
def goneEnvironment : Environment :=
  { Pipeline.sampleEnvironment with
    host := { Pipeline.sampleEnvironment.host with resolve := fun _ ↦ .error .fileNotFound } }

theorem missing_file_leaves_no_trace : ¬Kept goneEnvironment 1 sample := by
  intro h
  have htraced := h.traced sampleJob (by decide) (by decide)
  have hsame : runScheduledJob goneEnvironment 1 sample = sample := rfl
  rw [hsame] at htraced
  obtain ⟨k, e, hrows, -⟩ | ⟨-, entry, hskips⟩ := htraced
  · cases hrows
  · cases hskips

end Sample

end CronPanel.Scheduler.Traces
