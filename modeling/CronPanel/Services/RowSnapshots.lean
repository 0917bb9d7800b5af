import CronPanel.Library.WriteBack
import CronPanel.Services.Scripts

namespace CronPanel.Services.RowSnapshots

open Library.Strings Library.JsonData Library.Tables Library.Fallible Library.WriteBack
open Data.Records Data.Repositories Schemas.Bodies Execution.Policy Audit CronJobs Scripts

/-- The row of a job after the `UPDATE` of a flush, which writes the columns that the session
has changed. -/
def writeJob (now : Instant) (read edited stored : CronJob) : CronJob :=
  { name := writeColumn read.name edited.name stored.name
    description := writeColumn read.description edited.description stored.description
    command := writeColumn read.command edited.command stored.command
    scheduleExpression :=
      writeColumn read.scheduleExpression edited.scheduleExpression stored.scheduleExpression
    minute := writeColumn read.minute edited.minute stored.minute
    hour := writeColumn read.hour edited.hour stored.hour
    dayOfMonth := writeColumn read.dayOfMonth edited.dayOfMonth stored.dayOfMonth
    month := writeColumn read.month edited.month stored.month
    dayOfWeek := writeColumn read.dayOfWeek edited.dayOfWeek stored.dayOfWeek
    isActive := writeColumn read.isActive edited.isActive stored.isActive
    isDeleted := writeColumn read.isDeleted edited.isDeleted stored.isDeleted
    ownerId := writeColumn read.ownerId edited.ownerId stored.ownerId
    scriptId := writeColumn read.scriptId edited.scriptId stored.scriptId
    createdAt := writeColumn read.createdAt edited.createdAt stored.createdAt
    updatedAt := now }

def writeScript (now : Instant) (read edited stored : Script) : Script :=
  { name := writeColumn read.name edited.name stored.name
    description := writeColumn read.description edited.description stored.description
    path := writeColumn read.path edited.path stored.path
    isEnabled := writeColumn read.isEnabled edited.isEnabled stored.isEnabled
    isDeleted := writeColumn read.isDeleted edited.isDeleted stored.isDeleted
    createdBy := writeColumn read.createdBy edited.createdBy stored.createdBy
    createdAt := writeColumn read.createdAt edited.createdAt stored.createdAt
    updatedAt := now }

/-- The flush of a job; an object without changes writes nothing, and a row that is gone fails. -/
def flushJob (now : Instant) (jobId : ℕ) (read edited : CronJob) (db : Database) :
    Option Database :=
  if edited = read then some db
  else
    (db.cronJobs.get? jobId).map fun stored ↦
      { db with cronJobs := db.cronJobs.set jobId (writeJob now read edited stored) }

/-- The unique constraint on `scripts.name`. -/
def nameTaken (db : Database) (scriptId : ℕ) (name : Text) : Bool :=
  db.scripts.rows.any fun r ↦ r.1 ≠ scriptId ∧ r.2.name = name

/-- The flush of a script, which the unique constraints can refuse. -/
def flushScript (now : Instant) (scriptId : ℕ) (read edited : Script) (db : Database) :
    Option Database :=
  match db.scripts.get? scriptId with
  | none => if edited = read then some db else none
  | some stored =>
    let written := if edited = read then stored else writeScript now read edited stored
    if written.name ≠ stored.name ∧ nameTaken db scriptId written.name then none
    else if pathTaken db scriptId written.path then none
    else some { db with scripts := db.scripts.set scriptId written }

/-- `create_cron_job` once the reference to the script has been checked. -/
def createCronJobFrom (call : Call) (body : CronJobCreate) (db : Database) : Option Database :=
  match applySchedule
    { name := body.name
      description := body.description
      command := body.command
      scheduleExpression := []
      minute := []
      hour := []
      dayOfMonth := []
      month := []
      dayOfWeek := []
      isActive := true
      isDeleted := false
      ownerId := call.actor.id
      scriptId := body.scriptId
      createdAt := call.now
      updatedAt := call.now } body.scheduleExpression with
  | .error _ => none
  | .ok job =>
    let (id, cronJobs) := db.cronJobs.insert job
    let db := recordHistory call id .created [] { db with cronJobs }
    some (recordJobEvent call .cronJobCreated id
      [("name".toList, .text job.name),
        ("schedule_expression".toList, .text job.scheduleExpression)] db)

/-- `update_cron_job` from the job that the session has read. -/
def updateCronJobFrom (call : Call) (jobId : ℕ) (body : CronJobUpdate) (job : CronJob)
    (db : Database) : Option Database :=
  match editCronJob body job with
  | .error _ => none
  | .ok (edited, changes) =>
    if changes = [] then some db
    else do
      let db ← flushJob call.now jobId job edited db
      let db := recordHistory call jobId .updated changes db
      some (recordJobEvent call .cronJobUpdated jobId
        [("name".toList, .text edited.name), ("changed_fields".toList, changedFields changes)] db)

def updateCronJobStatusFrom (call : Call) (jobId : ℕ) (isActive : Bool) (job : CronJob)
    (db : Database) : Option Database :=
  if job.isActive = isActive then some db
  else do
    let db ← flushJob call.now jobId job { job with isActive } db
    let db := recordHistory call jobId (if isActive then .enabled else .disabled) [] db
    some (recordJobEvent call (if isActive then .cronJobEnabled else .cronJobDisabled) jobId
      [("name".toList, .text job.name), ("is_active".toList, .bool isActive)] db)

def deleteCronJobFrom (call : Call) (jobId : ℕ) (job : CronJob) (db : Database) :
    Option Database := do
  let db ← flushJob call.now jobId job { job with isDeleted := true, isActive := false } db
  let db := recordHistory call jobId .deleted [] db
  some (recordJobEvent call .cronJobDeleted jobId
    [("name".toList, .text job.name),
      ("schedule_expression".toList, .text job.scheduleExpression)] db)

/-- `create_script` once the path is resolved and the name was found free. -/
def createScriptFrom (call : Call) (body : ScriptCreate) (path : Path) (db : Database) :
    Option Database :=
  let script : Script :=
    { name := body.name
      description := body.description
      path := path.text
      isEnabled := true
      isDeleted := false
      createdBy := some call.actor.id
      createdAt := call.now
      updatedAt := call.now }
  if nameTaken db db.scripts.nextId script.name then none
  else if pathTaken db db.scripts.nextId script.path then none
  else
    let (id, scripts) := db.scripts.insert script
    some (recordScriptEvent call .scriptCreated id
      [("name".toList, .text script.name), ("path".toList, .text script.path)] { db with scripts })

/-- `update_script` from the script that the session has read, and its edit. -/
def updateScriptFrom (call : Call) (scriptId : ℕ) (script edited : Script) (changes : List Change)
    (db : Database) : Option Database :=
  if changes = [] then some db
  else do
    let db ← flushScript call.now scriptId script edited db
    some (recordScriptUpdate call scriptId script edited changes db)

/-- `delete_script` once no job was found to refer to the script. -/
def deleteScriptFrom (call : Call) (scriptId : ℕ) (script : Script) (db : Database) :
    Option Database :=
  (db.scripts.get? scriptId).map fun stored ↦
    let deleted := writeScript call.now script { script with isDeleted := true } stored
    recordScriptEvent call .scriptDeleted scriptId
      [("name".toList, .text script.name), ("path".toList, .text script.path)]
      { db with scripts := db.scripts.set scriptId deleted }

section Alone

variable {call : Call} {host : Host} {db : Database} {id : ℕ}

theorem writeJob_read (now : Instant) (read edited : CronJob) :
    writeJob now read edited read = { edited with updatedAt := now } := by
  simp only [writeJob, writeColumn_read]

theorem writeScript_read (now : Instant) (read edited : Script) :
    writeScript now read edited read = { edited with updatedAt := now } := by
  simp only [writeScript, writeColumn_read]

theorem flushJob_read {job : CronJob} (h : db.cronJobs.get? id = some job) (now : Instant)
    (edited : CronJob) :
    flushJob now id job edited db =
      some { db with cronJobs := db.cronJobs.set id (touch now job edited) } := by
  unfold flushJob touch
  split_ifs with hsame
  · rw [Table.set_get? h]
  · rw [h, Option.map_some, writeJob_read]

theorem createCronJobFrom_checked {body : CronJobCreate}
    (h : validateScriptReference db body.scriptId = .ok ()) :
    createCronJobFrom call body db = (createCronJob call body db).toOption.map Prod.snd := by
  unfold createCronJobFrom createCronJob
  rw [h, ok_bind]
  cases applySchedule _ body.scheduleExpression with
  | error e => rfl
  | ok job => rfl

theorem updateCronJobFrom_read {body : CronJobUpdate} {job : CronJob}
    (hjob : getJobForWrite db id call.actor = .ok job)
    (href : validateScriptReference db body.scriptId = .ok ()) :
    updateCronJobFrom call id body job db = (updateCronJob call id body db).toOption := by
  have hget := (Database.liveJob_eq_some.mp (getJobForWrite_ok hjob).1).1
  unfold updateCronJobFrom updateCronJob
  rw [hjob, ok_bind, href, ok_bind]
  cases editCronJob body job with
  | error e => rfl
  | ok result =>
    obtain ⟨edited, changes⟩ := result
    rw [ok_bind]
    dsimp only
    split_ifs with hnil
    · rfl
    · rw [flushJob_read hget]
      rfl

theorem updateCronJobStatusFrom_read {isActive : Bool} {job : CronJob}
    (hjob : getJobForWrite db id call.actor = .ok job) :
    updateCronJobStatusFrom call id isActive job db =
      (updateCronJobStatus call id isActive db).toOption := by
  have hget := (Database.liveJob_eq_some.mp (getJobForWrite_ok hjob).1).1
  unfold updateCronJobStatusFrom updateCronJobStatus
  rw [hjob, ok_bind]
  by_cases hsame : job.isActive = isActive
  · rw [if_pos hsame, if_pos hsame]
    rfl
  · have hne : { job with isActive } ≠ job := fun heq ↦ hsame (congrArg CronJob.isActive heq).symm
    rw [if_neg hsame, if_neg hsame, flushJob_read hget, touch, if_neg hne]
    rfl

theorem deleteCronJobFrom_read {job : CronJob} (hjob : getJobForWrite db id call.actor = .ok job) :
    deleteCronJobFrom call id job db = (deleteCronJob call id db).toOption := by
  obtain ⟨hget, hlive⟩ := Database.liveJob_eq_some.mp (getJobForWrite_ok hjob).1
  have hne : { job with isDeleted := true, isActive := false } ≠ job := by
    intro heq
    have hdeleted := congrArg CronJob.isDeleted heq
    rw [hlive] at hdeleted
    cases hdeleted
  unfold deleteCronJobFrom deleteCronJob
  rw [hjob, ok_bind, flushJob_read hget, touch, if_neg hne]
  rfl

theorem nameTaken_nextId {name : Text} (h : db.scriptByName name = none) (k : ℕ) :
    nameTaken db k name = false := by
  rw [nameTaken, List.any_eq_false]
  intro r hr
  have hname := List.find?_eq_none.mp h r hr
  simp only [decide_eq_true_eq] at hname ⊢
  exact fun hboth ↦ hname hboth.2

theorem createScriptFrom_free {body : ScriptCreate} {path : Path}
    (hpath : canonicalize host body.path = .ok path) (hname : db.scriptByName body.name = none) :
    createScriptFrom call body path db =
      (createScript call host body db).toOption.map Prod.snd := by
  unfold createScriptFrom createScript
  rw [hpath, ok_bind, hname]
  dsimp only
  rw [nameTaken_nextId hname, if_neg Bool.false_ne_true, Option.isSome_none,
    if_neg Bool.false_ne_true]
  split_ifs
  · rfl
  · rfl

theorem setName_free {new : Option Text} {script : Script} {name : Text} {changes : List Change}
    (hget : db.scripts.get? id = some script)
    (h : setName db id new script.name = .ok (name, changes)) (hne : name ≠ script.name) :
    nameTaken db id name = false := by
  unfold setName at h
  dsimp only at h
  split_ifs at h with htaken
  have hname : new.getD script.name = name := by
    rw [← setField_fst "name".toList Json.text, Except.ok.inj h]
  cases new with
  | none => exact absurd hname.symm hne
  | some other =>
    obtain rfl : other = name := hname
    rw [Option.bind_some, if_neg hne] at htaken
    cases hfound : db.scriptByName other with
    | none => exact nameTaken_nextId hfound id
    | some r =>
      -- the only row that can have the name is that of the script itself, which has another
      obtain ⟨k, row⟩ := r
      rw [hfound, Option.any_some, decide_eq_true_eq, not_not] at htaken
      obtain rfl : k = id := htaken
      have hrow : db.scripts.get? k = some row :=
        Table.mem_rows.mp (List.mem_of_find?_eq_some hfound)
      obtain rfl := Option.some.inj (hget.symm.trans hrow)
      have hsame := List.find?_some hfound
      rw [decide_eq_true_eq] at hsame
      exact absurd hsame.symm hne

theorem updateScriptFrom_read {body : ScriptUpdate} {script edited : Script}
    {changes : List Change} (hscript : getScript db id = .ok script)
    (hedit : editScript db host id body script = .ok (edited, changes)) :
    updateScriptFrom call id script edited changes db =
      (updateScript call host id body db).toOption := by
  have hget := (Database.liveScript_eq_some.mp (getScript_ok hscript)).1
  have hname : edited.name ≠ script.name → nameTaken db id edited.name = false := by
    obtain ⟨⟨name, onName⟩, hname, hedit⟩ := bind_eq_ok.mp hedit
    obtain ⟨⟨path, onPath⟩, -, hedit⟩ := bind_eq_ok.mp hedit
    cases hedit
    exact setName_free hget hname
  unfold updateScriptFrom updateScript flushScript
  rw [hscript, ok_bind, hedit, ok_bind, hget]
  dsimp only
  by_cases hnil : changes = []
  · rw [if_pos hnil, if_pos hnil]
    rfl
  · rw [if_neg hnil, if_neg hnil, writeScript_read]
    by_cases hsame : edited = script
    · rw [if_pos hsame, hsame, if_neg (by simp)]
      split_ifs
      · rfl
      · rfl
    · have hfree : ¬(edited.name ≠ script.name ∧ nameTaken db id edited.name) := by
        intro h
        rw [hname h.1] at h
        exact Bool.false_ne_true h.2
      rw [if_neg hsame, if_neg hfree]
      split_ifs
      · rfl
      · rfl

theorem deleteScriptFrom_read {script : Script} (hscript : getScript db id = .ok script)
    (hunused : db.isReferencedByActiveJob id = false) :
    deleteScriptFrom call id script db = (deleteScript call id db).toOption := by
  have hget := (Database.liveScript_eq_some.mp (getScript_ok hscript)).1
  unfold deleteScriptFrom deleteScript
  rw [hscript, ok_bind, hunused, if_neg Bool.false_ne_true, hget, Option.map_some,
    writeScript_read]
  rfl

end Alone

end CronPanel.Services.RowSnapshots
