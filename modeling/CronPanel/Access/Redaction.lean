import CronPanel.Library.Run
import CronPanel.Scheduler.Eligibility
import CronPanel.Scheduler.Jobs

namespace CronPanel.Access.Redaction

open Library.Strings Library.JsonData Library.Tables Library.Fallible Library.Run
open Core.Permissions Data.Records Data.Repositories Schemas.Bodies Execution.Policy
open Execution.Executor Services.Audit Services.CronJobs Services.Scripts Services.Executions
open Scheduler.Jobs Scheduler.Eligibility

/-- The operations on cron jobs, scripts and executions, each served as a whole. -/
inductive ServiceCall
  | createCronJob (call : Call) (body : CronJobCreate)
  | updateCronJob (call : Call) (jobId : ℕ) (body : CronJobUpdate)
  | updateCronJobStatus (call : Call) (jobId : ℕ) (isActive : Bool)
  | deleteCronJob (call : Call) (jobId : ℕ)
  | createScript (call : Call) (host : Host) (body : ScriptCreate)
  | updateScript (call : Call) (host : Host) (scriptId : ℕ) (body : ScriptUpdate)
  | deleteScript (call : Call) (scriptId : ℕ)
  | runCronJob (env : Environment) (call : Call) (jobId : ℕ)
  | runScheduledJob (env : Environment) (jobId : ℕ)

/-- The database after an operation; one that fails leaves it as it is. -/
def ServiceCall.serve (db : Database) : ServiceCall → Database
  | createCronJob call body =>
    (Prod.snd <$> Services.CronJobs.createCronJob call body db).toOption.getD db
  | updateCronJob call jobId body =>
    (Services.CronJobs.updateCronJob call jobId body db).toOption.getD db
  | updateCronJobStatus call jobId isActive =>
    (Services.CronJobs.updateCronJobStatus call jobId isActive db).toOption.getD db
  | deleteCronJob call jobId => (Services.CronJobs.deleteCronJob call jobId db).toOption.getD db
  | createScript call host body =>
    (Prod.snd <$> Services.Scripts.createScript call host body db).toOption.getD db
  | updateScript call host scriptId body =>
    (Services.Scripts.updateScript call host scriptId body db).toOption.getD db
  | deleteScript call scriptId => (Services.Scripts.deleteScript call scriptId db).toOption.getD db
  | runCronJob env call jobId => (Services.Executions.runCronJob env call jobId db).1
  | runScheduledJob env jobId => Scheduler.Jobs.runScheduledJob env jobId db

def redactJob (job : CronJob) : CronJob := { job with command := [], updatedAt := 0 }

def redactScript (script : Script) : Script := { script with path := [], updatedAt := 0 }

def redactExecution (execution : Execution) : Execution :=
  { execution with stdout := none, stderr := none, error := none }

/-- The tables that the operations read differ in commands, paths, output and the moments of the
last writes at most, and the trails not at all. -/
structure Similar (db db' : Database) : Prop where
  cronJobs : db.cronJobs.map redactJob = db'.cronJobs.map redactJob
  scripts : db.scripts.map redactScript = db'.scripts.map redactScript
  executions : db.executions.map redactExecution = db'.executions.map redactExecution
  auditLogs : db.auditLogs = db'.auditLogs

def execute (env : Environment) (path : Path) : Except ExecuteError ExecutionResult :=
  executeScript env.host path env.outputMaxChars env.durationMs env.process

/-- Two processes end alike, whatever they print. -/
structure SameOutcome (result result' : ExecutionResult) : Prop where
  status : finalStatus result = finalStatus result'
  exitCode : result.exitCode = result'.exitCode
  durationMs : result.durationMs = result'.durationMs

/-- The paths of a script are resolved in both runs or in neither, and its processes end alike. -/
abbrev EndsAlike (env env' : Environment) : Except PathError Path → Except PathError Path → Prop :=
  Agree (fun _ _ ↦ True) fun path path' ↦
    Agree (fun _ _ ↦ True) SameOutcome (execute env path) (execute env' path')

/-- The script of a job can be run on both sides or on neither, and ends there alike. -/
def SameEnds (env env' : Environment) (db db' : Database) (jobId : ℕ) : Prop :=
  env.now = env'.now ∧ ∀ job id script script', db.liveJob jobId = some job →
    job.scriptId = some id → db.scripts.get? id = some script →
    db'.scripts.get? id = some script' →
      EndsAlike env env' (canonicalizeScriptPath env.host script.path)
        (canonicalizeScriptPath env'.host script'.path)

/-- Two operations differ in the command, the path or the output only: the path is accepted on
both sides or on neither, and an update changes it, or the command, on both or on neither. -/
inductive Matched (db db' : Database) : ServiceCall → ServiceCall → Prop
  | createCronJob (call : Call) (body : CronJobCreate) (command : Text) :
    Matched db db' (.createCronJob call body) (.createCronJob call { body with command })
  | updateCronJob (call : Call) (jobId : ℕ) (body : CronJobUpdate) (command : Option Text)
    (h : ∀ job job', db.liveJob jobId = some job → db'.liveJob jobId = some job' →
      (body.command.getD job.command = job.command ↔
        command.getD job'.command = job'.command)) :
    Matched db db' (.updateCronJob call jobId body)
      (.updateCronJob call jobId { body with command })
  | updateCronJobStatus (call : Call) (jobId : ℕ) (isActive : Bool) :
    Matched db db' (.updateCronJobStatus call jobId isActive)
      (.updateCronJobStatus call jobId isActive)
  | deleteCronJob (call : Call) (jobId : ℕ) :
    Matched db db' (.deleteCronJob call jobId) (.deleteCronJob call jobId)
  | createScript (call : Call) (host host' : Host) (body : ScriptCreate) (path : Text)
    (h : Agree (fun _ _ ↦ True)
      (fun new new' : Path ↦ pathTaken db db.scripts.nextId new.text =
        pathTaken db' db'.scripts.nextId new'.text)
      (canonicalize host body.path) (canonicalize host' path)) :
    Matched db db' (.createScript call host body) (.createScript call host' { body with path })
  | updateScript (call : Call) (host host' : Host) (scriptId : ℕ) (body : ScriptUpdate)
    (path : Option Text)
    (h : ∀ script script', db.liveScript scriptId = some script →
      db'.liveScript scriptId = some script' →
      Agree (fun _ _ ↦ True)
        (fun new new' ↦ (new.2 = [] ↔ new'.2 = []) ∧
          pathTaken db scriptId new.1 = pathTaken db' scriptId new'.1)
        (setPath host body.path script.path) (setPath host' path script'.path)) :
    Matched db db' (.updateScript call host scriptId body)
      (.updateScript call host' scriptId { body with path })
  | deleteScript (call : Call) (scriptId : ℕ) :
    Matched db db' (.deleteScript call scriptId) (.deleteScript call scriptId)
  | runCronJob (env env' : Environment) (call : Call) (jobId : ℕ)
    (h : SameEnds env env' db db' jobId) :
    Matched db db' (.runCronJob env call jobId) (.runCronJob env' call jobId)
  | runScheduledJob (env env' : Environment) (jobId : ℕ) (h : SameEnds env env' db db' jobId) :
    Matched db db' (.runScheduledJob env jobId) (.runScheduledJob env' jobId)

/-- No script goes in or out whose path is another one on the other side. -/
def Silent (db db' : Database) : ServiceCall → ServiceCall → Prop
  | .createScript _ host body, .createScript _ host' body' =>
    ∀ new new' : Path, canonicalize host body.path = .ok new →
      canonicalize host' body'.path = .ok new' → db.scriptByName body.name = none →
      pathTaken db db.scripts.nextId new.text = false → new.text = new'.text
  | .deleteScript _ scriptId, .deleteScript _ _ =>
    ∀ script script', db.liveScript scriptId = some script →
      db'.liveScript scriptId = some script' →
      db.isReferencedByActiveJob scriptId = false → script.path = script'.path
  | _, _ => True

/-- Two runs side by side. -/
def step (s : Database × Database)
    (op : ServiceCall × ServiceCall) : Option (Database × Database) :=
  some (op.1.serve s.1, op.2.serve s.2)

section Similar

variable {db db' : Database} {id : ℕ}

theorem eq_of_redactJob {job job' : CronJob} (h : redactJob job = redactJob job') :
    ∃ command updatedAt, job' = { job with command, updatedAt } := by
  refine ⟨job'.command, job'.updatedAt, ?_⟩
  calc
    job' = { redactJob job' with command := job'.command, updatedAt := job'.updatedAt } := rfl
    _ = { redactJob job with command := job'.command, updatedAt := job'.updatedAt } := by rw [h]

theorem eq_of_redactScript {script script' : Script}
    (h : redactScript script = redactScript script') :
    ∃ path updatedAt, script' = { script with path, updatedAt } := by
  refine ⟨script'.path, script'.updatedAt, ?_⟩
  calc
    script' = { redactScript script' with
      path := script'.path, updatedAt := script'.updatedAt } := rfl
    _ = { redactScript script with path := script'.path, updatedAt := script'.updatedAt } := by
      rw [h]

theorem Similar.job (h : Similar db db') (id : ℕ) :
    (db.cronJobs.get? id = none ∧ db'.cronJobs.get? id = none) ∨
      ∃ job command updatedAt, db.cronJobs.get? id = some job ∧
        db'.cronJobs.get? id = some { job with command, updatedAt } := by
  rcases Table.get?_of_map_eq h.cronJobs id with hnone | ⟨job, job', hjob, hjob', hsame⟩
  · exact .inl hnone
  · obtain ⟨command, updatedAt, rfl⟩ := eq_of_redactJob hsame
    exact .inr ⟨job, command, updatedAt, hjob, hjob'⟩

theorem Similar.script (h : Similar db db') (id : ℕ) :
    (db.scripts.get? id = none ∧ db'.scripts.get? id = none) ∨
      ∃ script path updatedAt, db.scripts.get? id = some script ∧
        db'.scripts.get? id = some { script with path, updatedAt } := by
  rcases Table.get?_of_map_eq h.scripts id with hnone | ⟨script, script', hs, hs', hsame⟩
  · exact .inl hnone
  · obtain ⟨path, updatedAt, rfl⟩ := eq_of_redactScript hsame
    exact .inr ⟨script, path, updatedAt, hs, hs'⟩

theorem Similar.liveJob (h : Similar db db') (id : ℕ) :
    (db.liveJob id = none ∧ db'.liveJob id = none) ∨
      ∃ job command updatedAt, db.liveJob id = some job ∧
        db'.liveJob id = some { job with command, updatedAt } := by
  unfold Database.liveJob
  rcases h.job id with ⟨hjob, hjob'⟩ | ⟨job, command, updatedAt, hjob, hjob'⟩
  · rw [hjob, hjob']
    exact .inl ⟨rfl, rfl⟩
  · rw [hjob, hjob', Option.filter_some, Option.filter_some]
    dsimp only
    split_ifs with hlive
    · exact .inr ⟨job, command, updatedAt, rfl, rfl⟩
    · exact .inl ⟨rfl, rfl⟩

theorem Similar.liveScript (h : Similar db db') (id : ℕ) :
    (db.liveScript id = none ∧ db'.liveScript id = none) ∨
      ∃ script path updatedAt, db.liveScript id = some script ∧
        db'.liveScript id = some { script with path, updatedAt } := by
  unfold Database.liveScript
  rcases h.script id with ⟨hs, hs'⟩ | ⟨script, path, updatedAt, hs, hs'⟩
  · rw [hs, hs']
    exact .inl ⟨rfl, rfl⟩
  · rw [hs, hs', Option.filter_some, Option.filter_some]
    dsimp only
    split_ifs with hlive
    · exact .inr ⟨script, path, updatedAt, rfl, rfl⟩
    · exact .inl ⟨rfl, rfl⟩

theorem Similar.recordEvent (h : Similar db db') (now : Instant) (event : Event) :
    Similar (recordEvent now event db) (recordEvent now event db') := by
  refine ⟨h.cronJobs, h.scripts, h.executions, ?_⟩
  rw [Services.Audit.recordEvent, Services.Audit.recordEvent, h.auditLogs]

theorem Similar.recordHistory (h : Similar db db') (call : Call) (action : HistoryAction)
    (changes changes' : List Change) :
    Similar (recordHistory call id action changes db) (recordHistory call id action changes' db') :=
  ⟨h.cronJobs, h.scripts, h.executions, h.auditLogs⟩

theorem Similar.setJob (h : Similar db db') {job job' : CronJob}
    (hjob : redactJob job = redactJob job') :
    Similar { db with cronJobs := db.cronJobs.set id job }
      { db' with cronJobs := db'.cronJobs.set id job' } := by
  refine ⟨?_, h.scripts, h.executions, h.auditLogs⟩
  rw [Table.map_set, Table.map_set, h.cronJobs, hjob]

theorem Similar.setScript (h : Similar db db') {script script' : Script}
    (hscript : redactScript script = redactScript script') :
    Similar { db with scripts := db.scripts.set id script }
      { db' with scripts := db'.scripts.set id script' } := by
  refine ⟨h.cronJobs, ?_, h.executions, h.auditLogs⟩
  rw [Table.map_set, Table.map_set, h.scripts, hscript]

theorem Similar.setExecution (h : Similar db db') {row row' : Execution}
    (hrow : redactExecution row = redactExecution row') :
    Similar { db with executions := db.executions.set id row }
      { db' with executions := db'.executions.set id row' } := by
  refine ⟨h.cronJobs, h.scripts, ?_, h.auditLogs⟩
  rw [Table.map_set, Table.map_set, h.executions, hrow]

theorem Similar.validateScriptReference (h : Similar db db') (scriptId : Option ℕ) :
    validateScriptReference db scriptId = validateScriptReference db' scriptId := by
  cases scriptId with
  | none => rfl
  | some id =>
    simp only [Services.CronJobs.validateScriptReference]
    rcases h.liveScript id with ⟨hs, hs'⟩ | ⟨script, path, updatedAt, hs, hs'⟩
    · rw [hs, hs']
    · rw [hs, hs']
      rfl

theorem Similar.scriptByName (h : Similar db db') (name : Text) :
    (db.scriptByName name).map Prod.fst = (db'.scriptByName name).map Prod.fst :=
  Table.find?_of_map_eq h.scripts fun _ _ ↦ rfl

theorem Similar.isReferencedByActiveJob (h : Similar db db') (scriptId : ℕ) :
    db.isReferencedByActiveJob scriptId = db'.isReferencedByActiveJob scriptId :=
  Table.any_of_map_eq h.cronJobs fun _ _ ↦ rfl

theorem Similar.hasRunningExecution (h : Similar db db') (jobId : ℕ) :
    db.hasRunningExecution jobId = db'.hasRunningExecution jobId :=
  Table.any_of_map_eq h.executions fun _ _ ↦ rfl

end Similar

section Jobs

variable {call : Call} {db db' : Database} {jobId : ℕ}

/-- Both runs fail in the same way, or go on alike. -/
abbrev Alike {ε : Type} : Except ε Database → Except ε Database → Prop := Agree Eq Similar

theorem getJobForWrite_agree (h : Similar db db') (jobId : ℕ) (actor : Actor) :
    Agree Eq (fun job job' ↦ db.liveJob jobId = some job ∧ db'.liveJob jobId = some job' ∧
      ∃ command updatedAt, job' = { job with command, updatedAt })
      (getJobForWrite db jobId actor) (getJobForWrite db' jobId actor) := by
  unfold getJobForWrite getJobForRead
  rcases h.liveJob jobId with ⟨hjob, hjob'⟩ | ⟨job, command, updatedAt, hjob, hjob'⟩
  · rw [hjob, hjob']
    exact .error rfl
  · have hmanage : canManage { job with command, updatedAt } actor = canManage job actor := rfl
    simp only [hjob, hjob', Option.elim_some, ok_bind, hmanage]
    split_ifs
    · exact .ok ⟨rfl, rfl, command, updatedAt, rfl⟩
    · exact .error rfl

theorem applySchedule_agree (job : CronJob) (command : Text) (updatedAt : Instant)
    (expression : Text) :
    Agree Eq (fun job job' ↦ ∃ command updatedAt, job' = { job with command, updatedAt })
      (applySchedule job expression)
      (applySchedule { job with command, updatedAt } expression) := by
  unfold applySchedule
  split
  · exact .ok ⟨command, updatedAt, rfl⟩
  · exact .error rfl
  · exact .error rfl

theorem createCronJob_agree (h : Similar db db') (body : CronJobCreate) (command : Text) :
    Agree Eq (fun r r' ↦ Similar r.2 r'.2) (createCronJob call body db)
      (createCronJob call { body with command } db') := by
  unfold createCronJob
  rw [← h.validateScriptReference]
  refine Agree.bind (Agree.refl (R := Eq) (fun _ ↦ rfl) (fun _ ↦ rfl) _) ?_
  intro _ _ _
  refine (applySchedule_agree _ _ _ _).bind ?_
  intro job job' hsame
  obtain ⟨command, updatedAt, rfl⟩ := hsame
  have hid : db.cronJobs.nextId = db'.cronJobs.nextId := Table.nextId_of_map_eq h.cronJobs
  simp only [Table.insert, hid]
  apply Agree.ok
  apply Similar.recordEvent
  apply Similar.recordHistory
  apply h.setJob
  rfl

theorem setField_fields {α : Type} [DecidableEq α] (field : Text) (encode : α → Json)
    (new : Option α) (old : α) :
    (setField field encode new old).2.map Change.field = if new.getD old = old then []
      else [field] := by
  unfold setField
  cases new with
  | none => simp
  | some value =>
    rw [Option.getD_some]
    dsimp only
    split_ifs <;> rfl

/-- The edits differ in the command at most, and name the same columns. -/
def SameEdit (r r' : CronJob × List Change) : Prop :=
  (∃ command updatedAt, r'.1 = { r.1 with command, updatedAt }) ∧
    r.2.map Change.field = r'.2.map Change.field

theorem setSchedule_agree (new : Option Text) (job : CronJob) (command : Text)
    (updatedAt : Instant) :
    Agree Eq SameEdit (setSchedule new job) (setSchedule new { job with command, updatedAt }) := by
  unfold setSchedule
  cases new with
  | none => exact .ok ⟨⟨command, updatedAt, rfl⟩, rfl⟩
  | some expression =>
    dsimp only
    split_ifs with heq
    · exact .ok ⟨⟨command, updatedAt, rfl⟩, rfl⟩
    · refine (applySchedule_agree job command updatedAt expression).bind ?_
      intro edited edited' hsame
      exact .ok ⟨hsame, rfl⟩

theorem editCronJob_agree (body : CronJobUpdate) (job : CronJob) (command : Option Text)
    (stored : Text) (updatedAt : Instant)
    (hcommand : body.command.getD job.command = job.command ↔ command.getD stored = stored) :
    Agree Eq SameEdit (editCronJob body job)
      (editCronJob { body with command } { job with command := stored, updatedAt }) := by
  unfold editCronJob
  dsimp only
  refine (setSchedule_agree body.scheduleExpression _ _ _).bind ?_
  intro r r' hsame
  obtain ⟨hedited, hfields⟩ := hsame
  refine .ok ⟨hedited, ?_⟩
  simp only [List.map_append, setField_fields, hfields, hcommand]

theorem touch_redacted (now : Instant) (old new : CronJob) :
    redactJob (touch now old new) = redactJob new := by
  unfold touch
  split_ifs with heq
  · rw [heq]
  · rfl

theorem updateCronJob_agree (h : Similar db db') (body : CronJobUpdate) (command : Option Text)
    (hcommand : ∀ job job', db.liveJob jobId = some job → db'.liveJob jobId = some job' →
      (body.command.getD job.command = job.command ↔
        command.getD job'.command = job'.command)) :
    Alike (updateCronJob call jobId body db)
      (updateCronJob call jobId { body with command } db') := by
  unfold updateCronJob
  rw [← h.validateScriptReference]
  refine (getJobForWrite_agree h jobId call.actor).bind ?_
  intro job job' hjobs
  obtain ⟨hjob, hjob', stored, updatedAt, rfl⟩ := hjobs
  refine Agree.bind (Agree.refl (R := Eq) (fun _ ↦ rfl) (fun _ ↦ rfl) _) ?_
  intro _ _ _
  refine (editCronJob_agree body job command stored updatedAt (hcommand _ _ hjob hjob')).bind ?_
  intro r r' hedit
  obtain ⟨edited, changes⟩ := r
  obtain ⟨edited', changes'⟩ := r'
  obtain ⟨⟨command', updatedAt', rfl⟩, hfields⟩ := hedit
  have hnil : changes = [] ↔ changes' = [] := by
    rw [← List.map_eq_nil_iff (f := Change.field), hfields, List.map_eq_nil_iff]
  refine Agree.ite hnil (fun _ ↦ .ok h) (fun _ ↦ ?_)
  have hchanged : changedFields changes = changedFields changes' := by
    rw [changedFields, hfields, changedFields]
  rw [hchanged]
  apply Agree.ok
  apply Similar.recordEvent
  apply Similar.recordHistory
  apply h.setJob
  rw [touch_redacted, touch_redacted]
  rfl

theorem updateCronJobStatus_agree (h : Similar db db') (isActive : Bool) :
    Alike (updateCronJobStatus call jobId isActive db)
      (updateCronJobStatus call jobId isActive db') := by
  unfold updateCronJobStatus
  refine (getJobForWrite_agree h jobId call.actor).bind ?_
  intro job job' hjobs
  obtain ⟨-, -, stored, updatedAt, rfl⟩ := hjobs
  refine Agree.ite Iff.rfl (fun _ ↦ .ok h) (fun _ ↦ ?_)
  apply Agree.ok
  apply Similar.recordEvent
  apply Similar.recordHistory
  apply h.setJob
  rfl

theorem deleteCronJob_agree (h : Similar db db') :
    Alike (deleteCronJob call jobId db) (deleteCronJob call jobId db') := by
  unfold deleteCronJob
  refine (getJobForWrite_agree h jobId call.actor).bind ?_
  intro job job' hjobs
  obtain ⟨-, -, stored, updatedAt, rfl⟩ := hjobs
  apply Agree.ok
  apply Similar.recordEvent
  apply Similar.recordHistory
  apply h.setJob
  rfl

end Jobs

section Scripts

variable {call : Call} {host host' : Host} {db db' : Database} {scriptId : ℕ}

/-- Both runs fail, or go on alike. -/
abbrev AlikeIfAny {ε : Type} : Except ε Database → Except ε Database → Prop :=
  Agree (fun _ _ ↦ True) Similar

theorem getScript_agree (h : Similar db db') (scriptId : ℕ) :
    Agree (fun _ _ ↦ True)
      (fun script script' ↦ db.liveScript scriptId = some script ∧
        db'.liveScript scriptId = some script' ∧
        ∃ path updatedAt, script' = { script with path, updatedAt })
      (getScript db scriptId) (getScript db' scriptId) := by
  unfold getScript
  rcases h.liveScript scriptId with ⟨hs, hs'⟩ | ⟨script, path, updatedAt, hs, hs'⟩
  · rw [hs, hs']
    exact .error trivial
  · rw [hs, hs']
    exact .ok ⟨rfl, rfl, path, updatedAt, rfl⟩

/-- A script that goes in leaves the runs alike when its path is the same in both. -/
theorem createScript_agree (h : Similar db db') {body : ScriptCreate} {path : Text}
    (hpath : Agree (fun _ _ ↦ True)
      (fun new new' : Path ↦ pathTaken db db.scripts.nextId new.text =
        pathTaken db' db'.scripts.nextId new'.text)
      (canonicalize host body.path) (canonicalize host' path))
    (hsilent : ∀ new new' : Path, canonicalize host body.path = .ok new →
      canonicalize host' path = .ok new' → db.scriptByName body.name = none →
      pathTaken db db.scripts.nextId new.text = false → new.text = new'.text) :
    Agree (fun _ _ ↦ True) (fun r r' ↦ Similar r.2 r'.2) (createScript call host body db)
      (createScript call host' { body with path } db') := by
  have hid : db.scripts.nextId = db'.scripts.nextId := Table.nextId_of_map_eq h.scripts
  have hname : (db.scriptByName body.name).isSome = (db'.scriptByName body.name).isSome := by
    rw [← Option.isSome_map, h.scriptByName, Option.isSome_map]
  unfold createScript
  refine hpath.attach.bind ?_
  intro new new' hnew
  obtain ⟨hok, hok', htaken⟩ := hnew
  dsimp only
  refine Agree.ite (by rw [hname]) (fun _ ↦ .error trivial) (fun hfree ↦ ?_)
  refine Agree.ite (by rw [htaken]) (fun _ ↦ .error trivial) (fun hunique ↦ ?_)
  have htext : new.text = new'.text := by
    apply hsilent new new' hok hok'
    · rwa [Bool.not_eq_true, Option.isSome_eq_false_iff, Option.isNone_iff_eq_none] at hfree
    · exact Bool.eq_false_iff.mpr hunique
  simp only [Table.insert, hid, htext]
  apply Agree.ok
  apply Similar.recordEvent
  apply h.setScript
  rfl

theorem setName_agree (h : Similar db db') (new : Option Text) (old : Text) :
    Agree (fun _ _ ↦ True) Eq (setName db scriptId new old) (setName db' scriptId new old) := by
  have hother (name : Text) : (db.scriptByName name).any (fun other ↦ other.1 ≠ scriptId) =
      (db'.scriptByName name).any fun other ↦ other.1 ≠ scriptId := by
    have hfst (db : Database) : (db.scriptByName name).any (fun other ↦ other.1 ≠ scriptId) =
        ((db.scriptByName name).map Prod.fst).any (· ≠ scriptId) := by
      cases db.scriptByName name <;> rfl
    rw [hfst, h.scriptByName, hfst]
  unfold setName
  cases new with
  | none => exact .ok rfl
  | some name =>
    dsimp only [Option.bind_some]
    by_cases hsame : name = old
    · rw [if_pos hsame, if_pos hsame]
      exact .ok rfl
    · rw [if_neg hsame, if_neg hsame, hother]
      exact Agree.ite Iff.rfl (fun _ ↦ .error trivial) (fun _ ↦ .ok rfl)

theorem setPath_fields {host : Host} {new : Option Text} {old : Text} {r : Text × List Change}
    (h : setPath host new old = .ok r) :
    r.2.map Change.field = if r.2 = [] then [] else ["path".toList] := by
  unfold setPath at h
  cases new with
  | none =>
    cases h
    rfl
  | some path =>
    dsimp only at h
    split_ifs at h with heq
    · cases h
      rfl
    · obtain ⟨validated, -, h⟩ := bind_eq_ok.mp h
      cases h
      rfl

/-- Only the path of an edited script, and what it was before, may differ. -/
theorem editScript_agree (h : Similar db db') (body : ScriptUpdate) (script : Script)
    (path : Option Text) (stored : Text) (updatedAt : Instant)
    (hpath : Agree (fun _ _ ↦ True)
      (fun new new' ↦ (new.2 = [] ↔ new'.2 = []) ∧
        pathTaken db scriptId new.1 = pathTaken db' scriptId new'.1)
      (setPath host body.path script.path) (setPath host' path stored)) :
    Agree (fun _ _ ↦ True)
      (fun r r' ↦ (∃ path updatedAt, r'.1 = { r.1 with path, updatedAt }) ∧
        r.2.map Change.field = r'.2.map Change.field ∧
        pathTaken db scriptId r.1.path = pathTaken db' scriptId r'.1.path)
      (editScript db host scriptId body script)
      (editScript db' host' scriptId { body with path }
        { script with path := stored, updatedAt }) := by
  unfold editScript
  refine (setName_agree h body.name script.name).bind ?_
  intro name _ hname
  subst hname
  dsimp only
  refine hpath.attach.bind ?_
  intro new new' hnew
  obtain ⟨hok, hok', hnil, htaken⟩ := hnew
  have hfields := setPath_fields hok
  have hfields' := setPath_fields hok'
  refine .ok ⟨⟨new'.1, updatedAt, rfl⟩, ?_, htaken⟩
  simp only [List.map_append, hfields, hfields', hnil]

theorem recordScriptUpdate_similar (h : Similar db db') {old new old' new' : Script}
    {changes changes' : List Change} (hold : old'.isEnabled = old.isEnabled)
    (hnew : new'.isEnabled = new.isEnabled) (hname : new'.name = new.name)
    (hfields : changes.map Change.field = changes'.map Change.field) :
    Similar (recordScriptUpdate call scriptId old new changes db)
      (recordScriptUpdate call scriptId old' new' changes' db') := by
  have hchanged : changedFields changes = changedFields changes' := by
    rw [changedFields, hfields, changedFields]
  unfold recordScriptUpdate
  rw [hold, hnew, hname, hchanged]
  split_ifs
  · exact h.recordEvent _ _
  · exact (h.recordEvent _ _).recordEvent _ _
  · exact (h.recordEvent _ _).recordEvent _ _

theorem stored_redacted (now : Instant) (old new : Script) :
    redactScript (if new = old then old else { new with updatedAt := now }) = redactScript new := by
  split_ifs with heq
  · rw [heq]
  · rfl

theorem updateScript_agree (h : Similar db db') {body : ScriptUpdate} {path : Option Text}
    (hpath : ∀ script script', db.liveScript scriptId = some script →
      db'.liveScript scriptId = some script' →
      Agree (fun _ _ ↦ True)
        (fun new new' ↦ (new.2 = [] ↔ new'.2 = []) ∧
          pathTaken db scriptId new.1 = pathTaken db' scriptId new'.1)
        (setPath host body.path script.path) (setPath host' path script'.path)) :
    AlikeIfAny (updateScript call host scriptId body db)
      (updateScript call host' scriptId { body with path } db') := by
  unfold updateScript
  refine (getScript_agree h scriptId).bind ?_
  intro script script' hscripts
  obtain ⟨hscript, hscript', stored, updatedAt, rfl⟩ := hscripts
  refine (editScript_agree h body script path stored updatedAt (hpath _ _ hscript hscript')).bind ?_
  intro r r' hedit
  obtain ⟨edited, changes⟩ := r
  obtain ⟨edited', changes'⟩ := r'
  obtain ⟨⟨path', updatedAt', rfl⟩, hfields, htaken⟩ := hedit
  have hnil : changes = [] ↔ changes' = [] := by
    rw [← List.map_eq_nil_iff (f := Change.field), hfields, List.map_eq_nil_iff]
  refine Agree.ite hnil (fun _ ↦ .ok h) (fun _ ↦ ?_)
  refine Agree.ite (by rw [htaken]) (fun _ ↦ .error trivial) (fun _ ↦ ?_)
  apply Agree.ok
  refine recordScriptUpdate_similar (h.setScript ?_) rfl rfl rfl hfields
  rw [stored_redacted, stored_redacted]
  rfl

theorem deleteScript_agree (h : Similar db db')
    (hsilent : ∀ script script', db.liveScript scriptId = some script →
      db'.liveScript scriptId = some script' → db.isReferencedByActiveJob scriptId = false →
      script.path = script'.path) :
    AlikeIfAny (deleteScript call scriptId db) (deleteScript call scriptId db') := by
  unfold deleteScript
  refine (getScript_agree h scriptId).bind ?_
  intro script script' hscripts
  obtain ⟨hscript, hscript', stored, updatedAt, rfl⟩ := hscripts
  rw [← h.isReferencedByActiveJob]
  refine Agree.ite Iff.rfl (fun _ ↦ .error trivial) (fun hfree ↦ ?_)
  obtain rfl : script.path = stored := hsilent _ _ hscript hscript' (Bool.eq_false_iff.mpr hfree)
  apply Agree.ok
  apply Similar.recordEvent
  apply h.setScript
  rfl

end Scripts

section Runs

variable {env env' : Environment} {db db' : Database} {jobId : ℕ}

theorem resolveScript_agree (h : Similar db db') {job : CronJob} (command : Text)
    (updatedAt : Instant)
    (hends : ∀ id script script', job.scriptId = some id → db.scripts.get? id = some script →
      db'.scripts.get? id = some script' →
      EndsAlike env env' (canonicalizeScriptPath env.host script.path)
        (canonicalizeScriptPath env'.host script'.path)) :
    Agree (fun e e' ↦ skipReason e = skipReason e')
      (fun resolved resolved' ↦ resolved.id = resolved'.id ∧
        resolved.script.name = resolved'.script.name ∧
        Agree (fun _ _ ↦ True) SameOutcome (execute env resolved.path)
          (execute env' resolved'.path))
      (resolveScript env.host db job)
      (resolveScript env'.host db' { job with command, updatedAt }) := by
  unfold resolveScript
  dsimp only
  cases hid : job.scriptId with
  | none => exact .error rfl
  | some id =>
    dsimp only
    rcases h.script id with ⟨hs, hs'⟩ | ⟨script, path, written, hs, hs'⟩
    · rw [hs, hs']
      exact .error rfl
    · have hpath := hends id _ _ hid hs hs'
      rw [hs, hs']
      dsimp only
      refine Agree.ite Iff.rfl (fun _ ↦ .error rfl) (fun _ ↦ ?_)
      refine Agree.bind (hpath.mapError fun _ _ _ ↦ rfl) ?_
      intro _ _ hexecute
      exact .ok ⟨rfl, rfl, hexecute⟩

/-- The runs are under way alike. -/
structure SameRun (env env' : Environment) (r r' : Running × Database) : Prop where
  similar : Similar r.2 r'.2
  call : ∃ job, r'.1.call = { r.1.call with job }
  scriptId : r.1.scriptId = r'.1.scriptId
  executionId : r.1.executionId = r'.1.executionId
  ends : Agree (fun _ _ ↦ True) SameOutcome (execute env r.1.path) (execute env' r'.1.path)

theorem startRun_agree (h : Similar db db') (hnow : env.now = env'.now) (call : RunCall)
    (command : Text) (updatedAt : Instant)
    (hends : ∀ id script script', call.job.scriptId = some id → db.scripts.get? id = some script →
      db'.scripts.get? id = some script' →
      EndsAlike env env' (canonicalizeScriptPath env.host script.path)
        (canonicalizeScriptPath env'.host script'.path)) :
    Agree (fun e e' ↦ skipReason e = skipReason e') (SameRun env env') (startRun env call db)
      (startRun env' { call with job := { call.job with command, updatedAt } } db') := by
  have hid : db.executions.nextId = db'.executions.nextId := Table.nextId_of_map_eq h.executions
  unfold startRun
  refine Agree.ite Iff.rfl (fun _ ↦ .error rfl) (fun _ ↦ ?_)
  refine (resolveScript_agree h command updatedAt hends).bind ?_
  intro resolved resolved' hsame
  obtain ⟨hscript, hname, hexecute⟩ := hsame
  simp only [Table.insert, hid, hscript, hname, hnow]
  refine .ok ⟨?_, ⟨_, rfl⟩, rfl, rfl, hexecute⟩
  apply Similar.recordEvent
  apply h.setExecution
  rfl

theorem finishedExecution_redacted (now : Instant) {result result' : ExecutionResult}
    {row row' : Execution} (h : SameOutcome result result')
    (hrow : redactExecution row = redactExecution row') :
    redactExecution (finishedExecution now result row) =
      redactExecution (finishedExecution now result' row') := by
  have hfinished (result : ExecutionResult) (row : Execution) :
      redactExecution (finishedExecution now result row) =
        { redactExecution row with
          status := (finalStatus result).1
          exitCode := result.exitCode
          durationMs := some result.durationMs
          finishedAt := some now } := rfl
  rw [hfinished, hfinished, h.status, h.exitCode, h.durationMs, hrow]

theorem finishRun_agree (hnow : env.now = env'.now) {running running' : Running}
    (h : SameRun env env' (running, db) (running', db')) :
    Agree (fun e e' ↦ skipReason e = skipReason e') Similar (finishRun env running db)
      (finishRun env' running' db') := by
  obtain ⟨hsimilar, ⟨job, hcall⟩, hscriptId, hexecutionId, hends⟩ := h
  dsimp only at hsimilar hcall hscriptId hexecutionId hends
  unfold finishRun
  rw [← hscriptId, ← hexecutionId, hcall]
  have hsilent (e e' : ExecuteError) :
      skipReason (ExecutionError.ofExecute e) = skipReason (ExecutionError.ofExecute e') := by
    cases e <;> cases e' <;> rfl
  refine Agree.bind (hends.mapError fun e e' _ ↦ hsilent e e') ?_
  intro result result' hsame
  dsimp only
  rcases Table.get?_of_map_eq hsimilar.executions running.executionId with
    ⟨hrow, hrow'⟩ | ⟨row, row', hrow, hrow', hredacted⟩
  · rw [hrow, hrow']
    exact .error rfl
  rcases hsimilar.job running.call.jobId with
    ⟨hjob, hjob'⟩ | ⟨current, command, updatedAt, hjob, hjob'⟩
  · rw [hrow, hrow', hjob, hjob']
    exact .error rfl
  rcases hsimilar.script running.scriptId with
    ⟨hscript, hscript'⟩ | ⟨script, path, written, hscript, hscript'⟩
  · rw [hrow, hrow', hjob, hjob', hscript, hscript']
    exact .error rfl
  rw [hrow, hrow', hjob, hjob', hscript, hscript', hnow, hsame.status, hsame.exitCode,
    hsame.durationMs]
  apply Agree.ok
  apply Similar.recordEvent
  apply hsimilar.setExecution
  exact finishedExecution_redacted env'.now hsame hredacted

/-- The outcomes of two runs, with what they leave behind. -/
structure SameAnswer (r r' : Database × Except ExecutionError ℕ) : Prop where
  similar : Similar r.1 r'.1
  answer : Agree (fun e e' ↦ skipReason e = skipReason e') Eq r.2 r'.2

theorem run_agree (h : Similar db db') (hnow : env.now = env'.now) (call : RunCall)
    (command : Text) (updatedAt : Instant)
    (hends : ∀ id script script', call.job.scriptId = some id → db.scripts.get? id = some script →
      db'.scripts.get? id = some script' →
      EndsAlike env env' (canonicalizeScriptPath env.host script.path)
        (canonicalizeScriptPath env'.host script'.path)) :
    SameAnswer (run env call db)
      (run env' { call with job := { call.job with command, updatedAt } } db') := by
  have hstart := startRun_agree h hnow call command updatedAt hends
  unfold run
  generalize startRun env call db = started at hstart
  generalize startRun env' _ db' = started' at hstart
  cases hstart with
  | error he => exact ⟨h, .error he⟩
  | @ok r r' hrun =>
    obtain ⟨running, db₁⟩ := r
    obtain ⟨running', db₁'⟩ := r'
    have hfinish := finishRun_agree hnow hrun
    dsimp only
    generalize finishRun env running db₁ = finished at hfinish
    generalize finishRun env' running' db₁' = finished' at hfinish
    cases hfinish with
    | error he => exact ⟨hrun.similar, .error he⟩
    | ok hsimilar => exact ⟨hsimilar, .ok hrun.executionId⟩

theorem runCronJob_agree (h : Similar db db') (call : Call)
    (hends : SameEnds env env' db db' jobId) :
    Similar (runCronJob env call jobId db).1 (runCronJob env' call jobId db').1 := by
  obtain ⟨hnow, hends⟩ := hends
  unfold runCronJob manualCall
  rcases h.liveJob jobId with ⟨hjob, hjob'⟩ | ⟨job, command, updatedAt, hjob, hjob'⟩
  · rw [hjob, hjob']
    exact h
  · have hexecute : canExecute { job with command, updatedAt } call.actor =
        canExecute job call.actor := rfl
    simp only [hjob, hjob', hexecute]
    split_ifs
    · exact (run_agree h hnow ⟨jobId, job, .manual, some call.actor.id,
        some call.actor.user.username, call.ipAddress⟩ command updatedAt
        fun id script script' ↦ hends job id script script' hjob).similar
    · exact h

theorem recordFailure_similar (h : Similar db db') (now : Instant) (job : CronJob) (command : Text)
    (updatedAt : Instant) {e e' : ExecutionError} (he : skipReason e = skipReason e') :
    Similar (recordFailure now jobId job e db)
      (recordFailure now jobId { job with command, updatedAt } e' db') := by
  unfold recordFailure
  rw [he]
  cases skipReason e' with
  | none => exact h
  | some reason => exact h.recordEvent _ _

theorem runScheduledJob_agree (h : Similar db db') (hends : SameEnds env env' db db' jobId) :
    Similar (runScheduledJob env jobId db) (runScheduledJob env' jobId db') := by
  obtain ⟨hnow, hends⟩ := hends
  unfold runScheduledJob runScheduledCronJob
  rcases h.liveJob jobId with ⟨hjob, hjob'⟩ | ⟨job, command, updatedAt, hjob, hjob'⟩
  · rw [hjob, hjob']
    exact h
  · rw [hjob, hjob', h.hasRunningExecution, hnow]
    dsimp only
    split_ifs with hpaused hrunning
    · exact h
    · exact h.recordEvent _ _
    · have hanswer := run_agree h hnow (scheduledCall jobId job) command updatedAt
        fun id script script' ↦ hends job id script script' hjob
      change SameAnswer _
        (run env' (scheduledCall jobId { job with command, updatedAt }) db') at hanswer
      generalize run env (scheduledCall jobId job) db = r at hanswer
      generalize run env' (scheduledCall jobId { job with command, updatedAt }) db' = r' at hanswer
      obtain ⟨db₁, outcome⟩ := r
      obtain ⟨db₁', outcome'⟩ := r'
      obtain ⟨hsimilar, houtcome⟩ := hanswer
      cases houtcome with
      | ok _ => exact hsimilar
      | error he => exact recordFailure_similar hsimilar env'.now job command updatedAt he

end Runs

section Trail

variable {db db' : Database}

/-- Operations that match leave the runs alike when they are silent. -/
theorem serve_similar (h : Similar db db') {op op' : ServiceCall} (hmatch : Matched db db' op op')
    (hsilent : Silent db db' op op') : Similar (op.serve db) (op'.serve db') := by
  cases hmatch with
  | createCronJob call body command =>
    exact ((createCronJob_agree h body command).map fun _ _ ↦ id).getD h
  | updateCronJob call jobId body command hcommand =>
    exact (updateCronJob_agree h body command hcommand).getD h
  | updateCronJobStatus call jobId isActive => exact (updateCronJobStatus_agree h isActive).getD h
  | deleteCronJob call jobId => exact (deleteCronJob_agree h).getD h
  | createScript call host host' body path hpath =>
    exact ((createScript_agree h hpath hsilent).map fun _ _ ↦ id).getD h
  | updateScript call host host' scriptId body path hpath =>
    exact (updateScript_agree h hpath).getD h
  | deleteScript call scriptId => exact (deleteScript_agree h hsilent).getD h
  | runCronJob env env' call jobId hends => exact runCronJob_agree h call hends
  | runScheduledJob env env' jobId hends => exact runScheduledJob_agree h hends

theorem sanitize_script (name path : Text) :
    sanitizeDetails [("name".toList, .text name), ("path".toList, .text path)] =
      some (.object [("name".toList, .text name), ("path".toList, .text path)]) := by
  have hname : isSensitive "name".toList = false := by decide
  have hpath : isSensitive "path".toList = false := by decide
  simp only [sanitizeDetails, List.isEmpty_cons, Bool.false_eq_true, if_false, sanitizeValue,
    sanitizeEntries, sanitizeEntry, hname, hpath]

/-- An entry on a script tells its path. -/
theorem recordScriptEvent_inj {call : Call} {action : AuditAction} {id id' : ℕ}
    {name name' path path' : Text} (hlogs : db.auditLogs = db'.auditLogs)
    (h : (recordScriptEvent call action id
        [("name".toList, .text name), ("path".toList, .text path)] db).auditLogs =
      (recordScriptEvent call action id'
        [("name".toList, .text name'), ("path".toList, .text path')] db').auditLogs) :
    path = path' := by
  have hentry := congrArg (Table.get? · db.auditLogs.nextId) h
  simp only [recordScriptEvent, recordEvent, Table.insert, ← hlogs, Table.get?_set_self,
    Option.some.injEq] at hentry
  have hdetails := congrArg AuditLog.details hentry
  simp only [Event.entry, sanitize_script, Option.some.injEq, Json.object.injEq, List.cons.injEq,
    Prod.mk.injEq, Json.text.injEq] at hdetails
  exact hdetails.2.1.2

theorem createScript_accepted (call : Call) {host : Host} (body : ScriptCreate) {new : Path}
    (hnew : canonicalize host body.path = .ok new) (hname : db.scriptByName body.name = none)
    (hfree : pathTaken db db.scripts.nextId new.text = false) :
    ∃ scripts, createScript call host body db = .ok (db.scripts.nextId,
      recordScriptEvent call .scriptCreated db.scripts.nextId
        [("name".toList, .text body.name), ("path".toList, .text new.text)]
        { db with scripts }) := by
  simp only [createScript, hnew, ok_bind, hname, Option.isSome_none, Bool.false_eq_true, if_false,
    hfree]
  exact ⟨_, rfl⟩

theorem deleteScript_accepted (call : Call) {scriptId : ℕ} {script : Script}
    (hscript : db.liveScript scriptId = some script)
    (hfree : db.isReferencedByActiveJob scriptId = false) :
    ∃ scripts, deleteScript call scriptId db = .ok (recordScriptEvent call .scriptDeleted scriptId
      [("name".toList, .text script.name), ("path".toList, .text script.path)]
      { db with scripts }) := by
  simp only [deleteScript, getScript, hscript, Option.elim_some, ok_bind, hfree,
    Bool.false_eq_true, if_false]
  exact ⟨_, rfl⟩

/-- Operations that match and are not silent leave different trails. -/
theorem serve_discloses (h : Similar db db') {op op' : ServiceCall} (hmatch : Matched db db' op op')
    (hloud : ¬Silent db db' op op') : (op.serve db).auditLogs ≠ (op'.serve db').auditLogs := by
  cases hmatch with
  | createScript call host host' body path hpath =>
    simp only [Silent, not_forall] at hloud
    obtain ⟨new, new', hok, hok', hname, hfree, hne⟩ := hloud
    have htaken := hpath.of_ok hok hok'
    obtain ⟨scripts, hcreated⟩ := createScript_accepted call body hok hname hfree
    have hname' : db'.scriptByName body.name = none := by
      rw [← Option.map_eq_none_iff (f := Prod.fst), ← h.scriptByName, hname, Option.map_none]
    rw [htaken] at hfree
    obtain ⟨scripts', hcreated'⟩ :=
      createScript_accepted call { body with path } hok' hname' hfree
    intro hsame
    rw [ServiceCall.serve, hcreated, ServiceCall.serve, hcreated'] at hsame
    exact hne (recordScriptEvent_inj h.auditLogs hsame)
  | deleteScript call scriptId =>
    simp only [Silent, not_forall] at hloud
    obtain ⟨script, script', hscript, hscript', hfree, hne⟩ := hloud
    obtain ⟨scripts, hdeleted⟩ := deleteScript_accepted call hscript hfree
    rw [h.isReferencedByActiveJob] at hfree
    obtain ⟨scripts', hdeleted'⟩ := deleteScript_accepted call hscript' hfree
    intro hsame
    rw [ServiceCall.serve, hdeleted, ServiceCall.serve, hdeleted'] at hsame
    exact hne (recordScriptEvent_inj h.auditLogs hsame)
  | _ => exact absurd trivial hloud

/-- Of runs that match, the trails stay the same exactly when no script goes in or out under
another path. -/
theorem trails_same_iff {ops : List (ServiceCall × ServiceCall)} (h : Similar db db')
    (hmatch : Guarded step (fun s op ↦ Matched s.1 s.2 op.1 op.2) (db, db') ops) :
    Always step (fun s ↦ s.1.auditLogs = s.2.auditLogs) (db, db') ops ↔
      Guarded step (fun s op ↦ Silent s.1 s.2 op.1 op.2) (db, db') ops := by
  refine Guarded.always_iff (I := fun s ↦ Similar s.1 s.2) ?_ ?_ ?_ hmatch h
  · intro s hs
    exact hs.auditLogs
  · intro s op t hs hm hsilent ht
    cases ht
    exact serve_similar hs hm hsilent
  · intro s op hs hm hloud
    exact ⟨_, rfl, serve_discloses hs hm hloud⟩

end Trail

section Sample

def sampleCall (now : Instant) : Call := ⟨⟨1, sampleUser⟩, now, none⟩

def sampleHost : Host where
  win32 := false
  sysExecutable := "/usr/bin/python3".toList
  scriptsDir := ["srv".toList, "scripts".toList]
  resolve
    | raw =>
      if raw = "/srv/scripts/sync.py".toList then
        .ok ["srv".toList, "scripts".toList, "sync.py".toList]
      else if raw = "/srv/scripts/copy.py".toList then
        .ok ["srv".toList, "scripts".toList, "copy.py".toList]
      else .error .fileNotFound
  isFile _ := true
  executable _ := false

/-- A job is edited and a script registered, with one command and path in the first run and
others in the second. -/
def sampleOps : List (ServiceCall × ServiceCall) :=
  [(.updateCronJob (sampleCall 1) 1 { command := some "one".toList },
      .updateCronJob (sampleCall 1) 1 { command := some "two".toList }),
    (.createScript (sampleCall 2) sampleHost
        { name := "sync".toList, path := "/srv/scripts/sync.py".toList },
      .createScript (sampleCall 2) sampleHost
        { name := "sync".toList, path := "/srv/scripts/copy.py".toList })]

theorem Similar.refl (db : Database) : Similar db db := ⟨rfl, rfl, rfl, rfl⟩

theorem sampleOps_matched :
    Guarded step (fun s op ↦ Matched s.1 s.2 op.1 op.2) (sample, sample) sampleOps := by
  refine ⟨?_, fun t ht ↦ ⟨?_, fun _ _ ↦ trivial⟩⟩
  · refine .updateCronJob (sampleCall 1) 1 { command := some "one".toList } (some "two".toList) ?_
    intro job job' hjob hjob'
    cases hjob
    cases hjob'
    decide
  · obtain rfl := Option.some.inj ht
    have hresolve : canonicalize sampleHost "/srv/scripts/sync.py".toList =
        .ok ["srv".toList, "scripts".toList, "sync.py".toList] := rfl
    have hresolve' : canonicalize sampleHost "/srv/scripts/copy.py".toList =
        .ok ["srv".toList, "scripts".toList, "copy.py".toList] := rfl
    refine .createScript (sampleCall 2) sampleHost sampleHost
      { name := "sync".toList, path := "/srv/scripts/sync.py".toList } "/srv/scripts/copy.py".toList ?_
    rw [hresolve, hresolve']
    exact .ok (by decide)

/-- The path of a script that is registered is in the trail. -/
theorem registered_path_told :
    ¬∀ (db db' : Database) (ops : List (ServiceCall × ServiceCall)), Similar db db' →
      Guarded step (fun s op ↦ Matched s.1 s.2 op.1 op.2) (db, db') ops →
      Always step (fun s ↦ s.1.auditLogs = s.2.auditLogs) (db, db') ops := by
  intro h
  have hsame := h sample sample sampleOps (Similar.refl sample) sampleOps_matched
  obtain ⟨hfirst, hnext⟩ := sampleOps_matched
  have hsimilar := serve_similar (Similar.refl sample) hfirst trivial
  refine serve_discloses hsimilar (hnext _ rfl).1 ?_ ((hsame.2 _ rfl).2 _ rfl)
  intro hsilent
  have htext := hsilent ["srv".toList, "scripts".toList, "sync.py".toList]
    ["srv".toList, "scripts".toList, "copy.py".toList] rfl rfl rfl rfl
  revert htext
  decide

/-- Up to the registration of the script the trails are the same. -/
theorem trails_same_sample :
    Always step (fun s ↦ s.1.auditLogs = s.2.auditLogs) (sample, sample) (sampleOps.take 1) := by
  have hmatched : Guarded step (fun s op ↦ Matched s.1 s.2 op.1 op.2) (sample, sample)
      (sampleOps.take 1) := ⟨sampleOps_matched.1, fun _ _ ↦ trivial⟩
  exact (trails_same_iff (Similar.refl sample) hmatched).mpr ⟨trivial, fun _ _ ↦ trivial⟩

end Sample

end CronPanel.Access.Redaction
