import CronPanel.Services.Columns
import CronPanel.Access.Attribution
import CronPanel.Access.Pages

namespace CronPanel.Access.Permanence

open Library.Strings Library.JsonData Library.Tables Library.Fallible Library.Run Core.Permissions
open Core.Security Data.Records Data.Repositories Schemas.Accounts Services.Audit Services.CronJobs
open Services.Scripts Services.Executions Services.Trail Services.History Sessions.Edits
open Scheduler.Pipeline Scheduler.Abandoned Scheduler.Chronicle Api.Errors Api.Operations Api.Frames
open Api.Accounts Api.Requests Ledger Attribution

/-- What an execution is about stays, and all of it once the execution has come to its end. -/
structure Continues (e e' : Execution) : Prop where
  cronJobId : e'.cronJobId = e.cronJobId
  scriptId : e'.scriptId = e.scriptId
  trigger : e'.trigger = e.trigger
  username : e'.username = e.username
  ipAddress : e'.ipAddress = e.ipAddress
  startedAt : e'.startedAt = e.startedAt
  final : e.status ≠ .running → e' = e

/-- A job keeps its owner and the moment of its creation, and nothing touches it once deleted. -/
structure JobStays (job job' : CronJob) : Prop where
  ownerId : job'.ownerId = job.ownerId
  createdAt : job'.createdAt = job.createdAt
  deleted : job.isDeleted → job' = job

/-- A script keeps the moment of its creation; once deleted it can only lose its creator. -/
structure ScriptStays (script script' : Script) : Prop where
  createdAt : script'.createdAt = script.createdAt
  deleted : script.isDeleted → anonymous script' = anonymous script

/-- What has been recorded stays recorded. -/
structure Permanent (db db' : Database) : Prop where
  trail : ∃ entries, Appends db db' entries
  history : db.cronJobHistory.rows <+: db'.cronJobHistory.rows
  executions : db.executions.Keeps Continues db'.executions
  cronJobs : db.cronJobs.Keeps JobStays db'.cronJobs
  scripts : db.scripts.Keeps ScriptStays db'.scripts

section Rows

theorem Continues.refl (e : Execution) : Continues e e :=
  ⟨rfl, rfl, rfl, rfl, rfl, rfl, fun _ ↦ rfl⟩

theorem Continues.trans (e e₁ e₂ : Execution) (h : Continues e e₁) (h' : Continues e₁ e₂) :
    Continues e e₂ where
  cronJobId := h'.cronJobId.trans h.cronJobId
  scriptId := h'.scriptId.trans h.scriptId
  trigger := h'.trigger.trans h.trigger
  username := h'.username.trans h.username
  ipAddress := h'.ipAddress.trans h.ipAddress
  startedAt := h'.startedAt.trans h.startedAt
  final hfinal := by
    obtain rfl := h.final hfinal
    exact h'.final hfinal

theorem JobStays.refl (job : CronJob) : JobStays job job := ⟨rfl, rfl, fun _ ↦ rfl⟩

theorem JobStays.trans (job job₁ job₂ : CronJob) (h : JobStays job job₁) (h' : JobStays job₁ job₂) :
    JobStays job job₂ where
  ownerId := h'.ownerId.trans h.ownerId
  createdAt := h'.createdAt.trans h.createdAt
  deleted hdeleted := by
    obtain rfl := h.deleted hdeleted
    exact h'.deleted hdeleted

theorem ScriptStays.refl (script : Script) : ScriptStays script script := ⟨rfl, fun _ ↦ rfl⟩

theorem anonymous_isDeleted {script script' : Script} (h : anonymous script' = anonymous script) :
    script'.isDeleted = script.isDeleted := by
  have hsame := congrArg Script.isDeleted h
  exact hsame

theorem ScriptStays.trans (script script₁ script₂ : Script) (h : ScriptStays script script₁)
    (h' : ScriptStays script₁ script₂) : ScriptStays script script₂ where
  createdAt := h'.createdAt.trans h.createdAt
  deleted hdeleted := by
    have hfirst := h.deleted hdeleted
    exact (h'.deleted ((anonymous_isDeleted hfirst).trans hdeleted)).trans hfirst

/-- A row that is live can become anything that keeps its owner and its creation. -/
theorem jobStays_live {job job' : CronJob} (hlive : job.isDeleted = false)
    (howner : job'.ownerId = job.ownerId) (hcreated : job'.createdAt = job.createdAt) :
    JobStays job job' :=
  ⟨howner, hcreated, fun hdeleted ↦ absurd hdeleted (hlive ▸ Bool.false_ne_true)⟩

theorem scriptStays_live {script script' : Script} (hlive : script.isDeleted = false)
    (hcreated : script'.createdAt = script.createdAt) : ScriptStays script script' :=
  ⟨hcreated, fun hdeleted ↦ absurd hdeleted (hlive ▸ Bool.false_ne_true)⟩

variable {db db₁ db₂ : Database}

theorem Permanent.refl (db : Database) : Permanent db db where
  trail := ⟨[], .of_same rfl⟩
  history := List.prefix_rfl
  executions := .refl Continues.refl _
  cronJobs := .refl JobStays.refl _
  scripts := .refl ScriptStays.refl _

theorem Permanent.trans (h : Permanent db db₁) (h' : Permanent db₁ db₂) : Permanent db db₂ where
  trail := by
    obtain ⟨entries, happends⟩ := h.trail
    obtain ⟨entries', happends'⟩ := h'.trail
    exact ⟨_, happends.trans happends'⟩
  history := h.history.trans h'.history
  executions := h.executions.trans Continues.trans h'.executions
  cronJobs := h.cronJobs.trans JobStays.trans h'.cronJobs
  scripts := h.scripts.trans ScriptStays.trans h'.scripts

theorem trail_of_grows {P : AuditLog → Prop} (h : Grows P db db₁) :
    ∃ entries, Appends db db₁ entries := by
  obtain ⟨entries, happends, -⟩ := h
  exact ⟨entries, happends⟩

end Rows

section Edits

variable {db db' : Database} {call : Call} {id : ℕ}

theorem editCronJob_created {body : Schemas.Bodies.CronJobUpdate} {job edited : CronJob}
    {changes : List Change} (h : editCronJob body job = .ok (edited, changes)) :
    edited.createdAt = job.createdAt := by
  obtain ⟨⟨edited', onSchedule⟩, hs, h⟩ := bind_eq_ok.mp h
  cases h
  unfold setSchedule at hs
  split at hs
  · cases hs
    rfl
  · split_ifs at hs
    · cases hs
      rfl
    · obtain ⟨changed, hc, hs⟩ := bind_eq_ok.mp hs
      cases hs
      unfold applySchedule at hc
      split at hc <;> cases hc
      rfl

theorem editScript_created {host : Execution.Policy.Host} {body : Schemas.Bodies.ScriptUpdate}
    {script edited : Script} {changes : List Change}
    (h : editScript db host id body script = .ok (edited, changes)) :
    edited.createdAt = script.createdAt := by
  obtain ⟨⟨name, onName⟩, -, h⟩ := bind_eq_ok.mp h
  obtain ⟨⟨path, onPath⟩, -, h⟩ := bind_eq_ok.mp h
  cases h
  rfl

/-- A live job is written, and no script. -/
theorem stays_job {job job' : CronJob} (hlive : db.liveJob id = some job)
    (hjobs : db'.cronJobs = db.cronJobs.set id job') (hscripts : db'.scripts = db.scripts)
    (howner : job'.ownerId = job.ownerId) (hcreated : job'.createdAt = job.createdAt) :
    db.cronJobs.Keeps JobStays db'.cronJobs ∧ db.scripts.Keeps ScriptStays db'.scripts := by
  obtain ⟨hget, hdeleted⟩ := Database.liveJob_eq_some.mp hlive
  rw [hjobs, hscripts]
  refine ⟨Table.keeps_set JobStays.refl fun old hold ↦ ?_, .refl ScriptStays.refl _⟩
  obtain rfl := Option.some.inj (hget.symm.trans hold)
  exact jobStays_live hdeleted howner hcreated

/-- A live script is written, and no job. -/
theorem stays_script {script script' : Script} (hlive : db.liveScript id = some script)
    (hscripts : db'.scripts = db.scripts.set id script') (hjobs : db'.cronJobs = db.cronJobs)
    (hcreated : script'.createdAt = script.createdAt) :
    db.cronJobs.Keeps JobStays db'.cronJobs ∧ db.scripts.Keeps ScriptStays db'.scripts := by
  obtain ⟨hget, hdeleted⟩ := Database.liveScript_eq_some.mp hlive
  rw [hjobs, hscripts]
  refine ⟨.refl JobStays.refl _, Table.keeps_set ScriptStays.refl fun old hold ↦ ?_⟩
  obtain rfl := Option.some.inj (hget.symm.trans hold)
  exact scriptStays_live hdeleted hcreated

theorem stays_refl (db : Database) :
    db.cronJobs.Keeps JobStays db.cronJobs ∧ db.scripts.Keeps ScriptStays db.scripts :=
  ⟨.refl JobStays.refl _, .refl ScriptStays.refl _⟩

theorem commit_stays {op : Operation} {n : Notification} (h : op.commit db = .ok (db', n)) :
    db.cronJobs.Keeps JobStays db'.cronJobs ∧ db.scripts.Keeps ScriptStays db'.scripts := by
  obtain ⟨call, hperformed⟩ := commit_ok h
  cases op with
  | createCronJob sender body =>
    obtain ⟨-, checked, id, hc⟩ := hperformed
    obtain ⟨⟨⟩, -, hc⟩ := bind_eq_ok.mp hc
    obtain ⟨job, -, hc⟩ := bind_eq_ok.mp hc
    cases hc
    exact ⟨Table.keeps_insert JobStays.refl db.cronJobs job, .refl ScriptStays.refl _⟩
  | updateCronJob sender id body =>
    obtain ⟨-, checked, hc⟩ := hperformed
    obtain ⟨job, hjob, hc⟩ := bind_eq_ok.mp hc
    obtain ⟨⟨⟩, -, hc⟩ := bind_eq_ok.mp hc
    obtain ⟨⟨edited, changes⟩, hedit, hc⟩ := bind_eq_ok.mp hc
    dsimp only at hc
    split_ifs at hc
    · cases hc
      exact stays_refl db
    · cases hc
      obtain ⟨t, ht⟩ := Services.Columns.touch_eq call.now job edited
      refine stays_job (getJobForWrite_ok hjob).1 rfl rfl ?_ ?_
      · rw [ht]
        exact (Writes.editCronJob_kept hedit).1
      · rw [ht]
        have hcreated := editCronJob_created hedit
        exact hcreated
  | updateCronJobStatus sender id isActive =>
    obtain ⟨-, hc⟩ := hperformed
    obtain ⟨job, hjob, hc⟩ := bind_eq_ok.mp hc
    split_ifs at hc
    · cases hc
      exact stays_refl db
    all_goals
      cases hc
      exact stays_job (getJobForWrite_ok hjob).1 rfl rfl rfl rfl
  | deleteCronJob sender id =>
    obtain ⟨-, hc⟩ := hperformed
    obtain ⟨job, hjob, hc⟩ := bind_eq_ok.mp hc
    cases hc
    exact stays_job (getJobForWrite_ok hjob).1 rfl rfl rfl rfl
  | createScript sender host body =>
    obtain ⟨-, checked, id, hc⟩ := hperformed
    obtain ⟨validated, -, hc⟩ := bind_eq_ok.mp hc
    dsimp only at hc
    split_ifs at hc
    cases hc
    exact ⟨.refl JobStays.refl _, Table.keeps_insert ScriptStays.refl db.scripts _⟩
  | updateScript sender host id body =>
    obtain ⟨-, checked, hc⟩ := hperformed
    obtain ⟨script, hscript, hc⟩ := bind_eq_ok.mp hc
    obtain ⟨⟨edited, changes⟩, hedit, hc⟩ := bind_eq_ok.mp hc
    have hcreated := editScript_created hedit
    dsimp only at hc
    split_ifs at hc with hnil htaken hsame
    · cases hc
      exact stays_refl db
    all_goals
      cases hc
      refine stays_script (getScript_ok hscript) (recordScriptUpdate_scripts ..)
        (recordScriptUpdate_cronJobs ..) ?_
    · rfl
    · exact hcreated
  | deleteScript sender id =>
    obtain ⟨-, hc⟩ := hperformed
    obtain ⟨script, hscript, hc⟩ := bind_eq_ok.mp hc
    split_ifs at hc
    cases hc
    exact stays_script (getScript_ok hscript) rfl rfl rfl

theorem commit_permanent {op : Operation} {n : Notification} (h : op.commit db = .ok (db', n)) :
    Permanent db db' where
  trail := by
    obtain ⟨call, -, hgrows⟩ := commit_grows h
    exact trail_of_grows hgrows
  history := by
    obtain hsame | ⟨id, action, changes, row, hrecorded⟩ := commit_recorded h
    · rw [hsame.history]
    · obtain ⟨entry, -, -, -, hinsert⟩ := hrecorded.history
      rw [hinsert, Table.rows_insert]
      exact List.prefix_append _ _
  executions := by
    rw [(commit_framed h).executions]
    exact .refl Continues.refl _
  cronJobs := (commit_stays h).1
  scripts := (commit_stays h).2

end Edits

section Accounts

variable {bcrypt : Bcrypt} {settings : Settings} {db db' : Database}

theorem answer_trail {result : Except HttpError Database}
    (h : ∀ db', result = .ok db' → ∃ entries, Appends db db' entries) :
    ∃ entries, Appends db (Api.Requests.answer db result).1 entries := by
  cases result with
  | error e => exact ⟨[], .of_same rfl⟩
  | ok db' => exact h db' rfl

/-- Requests about accounts add to the trail. -/
theorem serve_trail (r : AccountRequest) :
    ∃ entries, Appends db (r.serve bcrypt settings db).1 entries := by
  cases r with
  | login now ipAddress jti username password =>
    exact trail_of_grows (login_settled now ipAddress jti username password db).entries
  | logout bearer => exact answer_trail fun db' h ↦ trail_of_grows (logout_settled h).entries
  | changePassword bearer salt body =>
    change ∃ entries, Appends db (Api.Accounts.changePassword bcrypt settings bearer salt body db).1
      entries
    unfold Api.Accounts.changePassword
    cases hcall : authenticated bearer db with
    | error e => exact ⟨[], .of_same rfl⟩
    | ok call =>
      cases checkBody body.validate with
      | error e => exact ⟨[], .of_same rfl⟩
      | ok checked =>
        exact trail_of_grows
          (changePassword_settled (Sessions.Changes.authenticated_user hcall).1).entries
  | createUser bearer salt body =>
    refine answer_trail fun db' h ↦ ?_
    obtain ⟨⟨id, db₁⟩, hcreate, rfl⟩ := map_eq_ok.mp h
    obtain ⟨call, -, hcreate⟩ := bind_eq_ok.mp hcreate
    obtain ⟨checked, -, hcreate⟩ := bind_eq_ok.mp hcreate
    obtain ⟨-, user, details, -, -, happends⟩ := createUser_entry (mapError_eq_ok.mp hcreate)
    exact ⟨_, happends⟩
  | updateUser bearer salt id body =>
    refine answer_trail fun db' h ↦ ?_
    obtain ⟨call, -, h⟩ := bind_eq_ok.mp h
    obtain ⟨checked, -, h⟩ := bind_eq_ok.mp h
    obtain ⟨old, new, -, hupdated⟩ := updateUser_updated (mapError_eq_ok.mp h)
    obtain ⟨entries, hedited, -⟩ := hupdated.edited
    exact ⟨entries, hedited.entries⟩
  | deleteUser bearer id =>
    refine answer_trail fun db' h ↦ ?_
    obtain ⟨call, -, h⟩ := bind_eq_ok.mp h
    obtain ⟨-, details, happends⟩ := deleteUser_entry (mapError_eq_ok.mp h)
    exact ⟨_, happends⟩

theorem account_permanent (r : AccountRequest) : Permanent db (r.serve bcrypt settings db).1 := by
  have hframe := serve_frame bcrypt settings db r
  refine ⟨serve_trail r, ?_, ?_, ?_, ?_⟩
  · rw [hframe.cronJobHistory]
  · rw [hframe.executions]
    exact .refl Continues.refl _
  · rw [hframe.cronJobs]
    exact .refl JobStays.refl _
  · intro id script hget
    have hsame := congrArg (fun t ↦ t.get? id) hframe.scripts
    simp only [Table.get?_map, hget, Option.map_some] at hsame
    obtain ⟨script', hget', hanonymous⟩ := Option.map_eq_some_iff.mp hsame
    have hcreated := congrArg Script.createdAt hanonymous
    exact ⟨script', hget', hcreated, fun _ ↦ hanonymous⟩

end Accounts

section Runs

variable {env : Environment} {call : RunCall} {running : Running} {db db' : Database}
  {w w' : World}

theorem event_permanent (now : Instant) (event : Services.Audit.Event) (db : Database) :
    Permanent db (recordEvent now event db) where
  trail := ⟨_, appends_event now event db⟩
  history := List.prefix_rfl
  executions := .refl Continues.refl _
  cronJobs := .refl JobStays.refl _
  scripts := .refl ScriptStays.refl _

theorem startRun_permanent (h : startRun env call db = .ok (running, db')) : Permanent db db' := by
  obtain ⟨resolved, -, -, rfl, rfl⟩ := startRun_eq_ok h
  have hinsert := Table.keeps_insert Continues.refl db.executions
    (startedExecution env.now call resolved.id)
  refine ⟨⟨_, appends_event _ _ _⟩, List.prefix_rfl, hinsert, ?_, ?_⟩
  · exact .refl JobStays.refl db.cronJobs
  · exact .refl ScriptStays.refl db.scripts

/-- A run ends the execution that it has started. -/
theorem finishRun_permanent {row : Execution}
    (hrow : db.executions.get? running.executionId = some row) (hrunning : row.status = .running)
    (h : finishRun env running db = .ok db') : Permanent db db' := by
  obtain ⟨result, row', job, script, -, hrow', -, -, rfl⟩ := finishRun_eq_ok h
  obtain rfl := Option.some.inj (hrow.symm.trans hrow')
  have hset : db.executions.Keeps Continues
      (db.executions.set running.executionId (finishedExecution env.now result row)) := by
    refine Table.keeps_set Continues.refl fun old hold ↦ ?_
    obtain rfl := Option.some.inj (hrow.symm.trans hold)
    exact ⟨rfl, rfl, rfl, rfl, rfl, rfl, absurd hrunning⟩
  refine ⟨⟨_, appends_event _ _ _⟩, List.prefix_rfl, hset, ?_, ?_⟩
  · exact .refl JobStays.refl db.cronJobs
  · exact .refl ScriptStays.refl db.scripts

theorem advance_permanent {stage : Stage} {rest : Option Stage}
    (hrows : ∀ run, stage = .running run → ∃ row,
      db.executions.get? run.executionId = some row ∧ row.status = .running)
    (h : stage.advance env db = .ok (db', rest)) : Permanent db db' := by
  cases stage with
  | starting call =>
    obtain ⟨⟨run, db₁⟩, hs, he⟩ := bind_eq_ok.mp h
    cases he
    exact startRun_permanent hs
  | running run =>
    obtain ⟨db₁, hf, he⟩ := bind_eq_ok.mp h
    cases he
    obtain ⟨row, hrow, hrunning⟩ := hrows run rfl
    exact finishRun_permanent hrow hrunning hf

theorem recordFailure_permanent (now : Instant) (jobId : ℕ) (job : CronJob) (e : ExecutionError)
    (db : Database) : Permanent db (Scheduler.Jobs.recordFailure now jobId job e db) := by
  unfold Scheduler.Jobs.recordFailure
  cases Scheduler.Jobs.skipReason e with
  | none => exact .refl db
  | some reason => exact event_permanent now _ db

/-- The execution of a run under way is running. -/
theorem runningRow (hw : Chronicled w) {p : Party} {stage : Stage} (hp : stage? w p = some stage) :
    ∀ run, stage = .running run → ∃ row,
      w.db.executions.get? run.executionId = some row ∧ row.status = .running := by
  rintro run rfl
  obtain ⟨row, hrow, hrunning, -⟩ := hw.running p run hp
  exact ⟨row, hrow, hrunning⟩

theorem fire_permanent (hw : Chronicled w) {jobId : ℕ} {fire : Fire}
    (hfire : w.fires.get? jobId = some fire) : Permanent w.db (fire.advance env jobId w.db).1 := by
  cases fire with
  | checking job =>
    simp only [Fire.advance]
    split_ifs
    · exact event_permanent env.now _ _
    · exact .refl _
  | calling job =>
    simp only [Fire.advance]
    split
    · exact recordFailure_permanent env.now jobId job .notFound w.db
    · exact .refl _
  | inRun stage =>
    simp only [Fire.advance]
    cases hs : stage.advance env w.db with
    | error e => exact recordFailure_permanent ..
    | ok r =>
      obtain ⟨db₁, rest⟩ := r
      refine advance_permanent (runningRow hw (p := .fire jobId) ?_) hs
      rw [stage?, hfire]
      rfl

theorem pipeline_permanent (hw : Chronicled w) {a : Scheduler.Pipeline.Action}
    (h : Scheduler.Pipeline.step w a = some w') : Permanent w.db w'.db := by
  cases a with
  | edit op =>
    cases hc : op.commit w.db with
    | error e =>
      simp only [Scheduler.Pipeline.step, hc, Option.some.injEq] at h
      exact h ▸ .refl _
    | ok r =>
      simp only [Scheduler.Pipeline.step, hc, Option.some.injEq] at h
      subst h
      exact commit_permanent hc
  | fire jobId =>
    dsimp only [Scheduler.Pipeline.step] at h
    split at h
    · cases h
    · split at h <;> cases h
      · exact .refl _
      · split_ifs <;> exact .refl _
  | execute sender jobId =>
    dsimp only [Scheduler.Pipeline.step] at h
    split at h <;> cases h <;> exact .refl _
  | advanceFire env jobId =>
    obtain ⟨fire, hfire, rfl⟩ := step_advanceFire h
    exact fire_permanent hw hfire
  | advanceRequest env k =>
    obtain ⟨stage, hk, rfl⟩ := Option.map_eq_some_iff.mp h
    cases hadv : stage.advance env w.db with
    | error e => exact .refl _
    | ok r =>
      obtain ⟨db', rest⟩ := r
      exact advance_permanent (runningRow hw (p := .request k) hk) hadv
  | failFire jobId =>
    obtain ⟨fire, -, rfl⟩ := Option.map_eq_some_iff.mp h
    exact .refl _
  | failRequest k =>
    obtain ⟨stage, -, rfl⟩ := Option.map_eq_some_iff.mp h
    exact .refl _
  | restart now =>
    cases h
    exact ⟨⟨[], .of_same rfl⟩, List.prefix_rfl, .refl Continues.refl _, .refl JobStays.refl _,
      .refl ScriptStays.refl _⟩

variable {bcrypt : Bcrypt} {settings : Settings}

theorem step_permanent (hw : Chronicled w) {a : Scheduler.Chronicle.Action}
    (h : step bcrypt settings w a = some w') : Permanent w.db w'.db := by
  cases a with
  | pipeline a => exact pipeline_permanent hw h
  | account r =>
    cases h
    exact account_permanent r

/-- Whatever edits, runs, crashes and requests about accounts follow on each other, nothing that has
been recorded is lost or rewritten later: the trail and the history only grow, an execution stays
what it was once it has ended, and no job or script comes back from its deletion. -/
theorem records_permanent {db : Database} (hnone : ∀ k, db.executions.get? k = none)
    (hlog : executionLog db = []) {as : List Scheduler.Chronicle.Action} {w : World}
    (hw : exec (step bcrypt settings) (begin db) as = some w)
    (bs : List Scheduler.Chronicle.Action) :
    Always (step bcrypt settings) (fun v ↦ Permanent w.db v.db) w bs := by
  have hchronicled : Chronicled w :=
    (always (fun v a v' h hv ↦ h.change (step_change hv)) (chronicled_begin hnone hlog)).last hw
  have hall : Always (step bcrypt settings) (fun v ↦ Chronicled v ∧ Permanent w.db v.db) w bs := by
    refine always ?_ ⟨hchronicled, .refl _⟩
    intro v a v' hv hstep
    exact ⟨hv.1.change (step_change hstep), hv.2.trans (step_permanent hv.1 hstep)⟩
  exact always_mono (fun v h ↦ h.2) hall

end Runs

section Sample

open Sessions.Machine (sampleBcrypt sampleSettings)

theorem records_permanent_backup : ∃ w,
    exec (step sampleBcrypt sampleSettings) (begin Scheduler.Eligibility.sample) manualRun =
        some w ∧ w.db.executions.keys = [1] ∧
      ∀ bs, Always (step sampleBcrypt sampleSettings) (fun v ↦ Permanent w.db v.db) w bs := by
  have hkeys : (exec (step sampleBcrypt sampleSettings) (begin Scheduler.Eligibility.sample)
      manualRun).map (fun w ↦ w.db.executions.keys) = some [1] := by decide
  obtain ⟨w, hw, hkeys⟩ := Option.map_eq_some_iff.mp hkeys
  exact ⟨w, hw, hkeys, records_permanent (fun _ ↦ rfl) rfl hw⟩

end Sample

end CronPanel.Access.Permanence
