import CronPanel.Access.Updates
import CronPanel.Api.Stages
import CronPanel.Services.Columns

namespace CronPanel.Access.Interleaved

open Library.Strings Library.Tables Library.Fallible Library.Run Library.Sessions Library.WriteBack
open Data.Records Data.Repositories Data.Repositories.Database Cron.Elements Schemas.Bodies
open Services.CronJobs Services.Scripts Services.Columns Services.RowSnapshots
open Api.Errors Api.Operations Api.Stages Scheduler.Eligibility

/-- The row of a job is written back, if the session has changed it. -/
structure Flushed (now : Instant) (id : ℕ) (read edited : CronJob) (db db' : Database) : Prop where
  scripts : db'.scripts = db.scripts
  cronJobs : edited = read ∧ db'.cronJobs = db.cronJobs ∨
    edited ≠ read ∧ ∃ stored, db.cronJobs.get? id = some stored ∧
      db'.cronJobs = db.cronJobs.set id (writeJob now read edited stored)

/-- The schedule of a body, if it has one, is the text of a schedule. -/
def Texts (body : CronJobUpdate) : Prop :=
  ∀ t, body.scheduleExpression = some t → ∃ s : Schedule, t = s.text

/-- What is known of a request in progress: its body has been checked, the job that it has read
is such a job as there are in the table, and the script that it deletes was not deleted. -/
def Known (P : CronJob → Prop) : Progress → Prop
  | .accepted (.createCronJob body) => ∃ s : Schedule, body.scheduleExpression = s.text
  | .ready (.createCronJob body) => ∃ s : Schedule, body.scheduleExpression = s.text
  | .accepted (.updateCronJob _ body) => Texts body
  | .loaded (.updateCronJob _ body job) => Texts body ∧ P job
  | .ready (.updateCronJob _ body job) => Texts body ∧ P job
  | .ready (.updateCronJobStatus _ _ job) => P job
  | .ready (.deleteCronJob _ job) => P job
  | .ready (.updateScript _ script edited _) => edited.isDeleted = script.isDeleted
  | .loaded (.deleteScript _ script) => script.isDeleted = false
  | .ready (.deleteScript _ script) => script.isDeleted = false
  | _ => True

section

variable {db db' : Database} {call : Call} {id : ℕ} {P : CronJob → Prop}

theorem flushJob_some {now : Instant} {read edited : CronJob}
    (h : flushJob now id read edited db = some db') : Flushed now id read edited db db' := by
  unfold flushJob at h
  split_ifs at h with hsame
  · obtain rfl := Option.some.inj h
    exact ⟨rfl, .inl ⟨hsame, rfl⟩⟩
  · obtain ⟨stored, hget, rfl⟩ := Option.map_eq_some_iff.mp h
    exact ⟨rfl, .inr ⟨hsame, stored, hget, rfl⟩⟩

theorem flushJob_stored {now : Instant} {read edited stored : CronJob} (hne : edited ≠ read)
    (hget : db.cronJobs.get? id = some stored) :
    flushJob now id read edited db =
      some { db with cronJobs := db.cronJobs.set id (writeJob now read edited stored) } := by
  rw [flushJob, if_neg hne, hget, Option.map_some]

theorem createCronJobFrom_some (call : Call) (db : Database) {body : CronJobCreate} {s : Schedule}
    (hs : body.scheduleExpression = s.text) :
    ∃ row db', createCronJobFrom call body db = some db' ∧ db'.scripts = db.scripts ∧
      db'.cronJobs = db.cronJobs.set db.cronJobs.nextId (withSchedule row s) ∧
      row.scriptId = body.scriptId ∧ row.isDeleted = false ∧ row.isActive = true := by
  rw [createCronJobFrom, hs, applySchedule_text]
  exact ⟨_, _, rfl, rfl, rfl, rfl, rfl, rfl⟩

theorem updateCronJobFrom_some {body : CronJobUpdate} {job : CronJob}
    (hbody : Texts body) (h : updateCronJobFrom call id body job db = some db') :
    ∃ edited changes, editCronJob body job = .ok (edited, changes) ∧
      Flushed call.now id job edited db db' := by
  unfold updateCronJobFrom at h
  split at h
  · cases h
  · rename_i edited changes hedit
    split_ifs at h with hnil
    · obtain rfl := Option.some.inj h
      exact ⟨edited, changes, hedit, rfl, .inl ⟨(editCronJob_ok hbody hedit).2.2.2.2 hnil, rfl⟩⟩
    · obtain ⟨flushed, hflush, h⟩ := Option.bind_eq_some_iff.mp h
      obtain rfl := Option.some.inj h
      obtain ⟨hscripts, hjobs⟩ := flushJob_some hflush
      exact ⟨edited, changes, hedit, hscripts, hjobs⟩

/-- An edit that changes the row is written to it, and fails for no other reason. -/
theorem updateCronJobFrom_writes {body : CronJobUpdate} {job edited stored : CronJob}
    {changes : List Change} (hbody : Texts body)
    (hedit : editCronJob body job = .ok (edited, changes)) (hne : edited ≠ job)
    (hget : db.cronJobs.get? id = some stored) :
    ∃ db', updateCronJobFrom call id body job db = some db' ∧ db'.scripts = db.scripts ∧
      db'.cronJobs = db.cronJobs.set id (writeJob call.now job edited stored) := by
  have hchanges : changes ≠ [] := fun hnil ↦ hne ((editCronJob_ok hbody hedit).2.2.2.2 hnil)
  rw [updateCronJobFrom, hedit]
  dsimp only
  rw [if_neg hchanges, flushJob_stored hne hget]
  exact ⟨_, rfl, rfl, rfl⟩

theorem updateCronJobStatusFrom_some {isActive : Bool} {job : CronJob}
    (h : updateCronJobStatusFrom call id isActive job db = some db') :
    Flushed call.now id job { job with isActive } db db' := by
  unfold updateCronJobStatusFrom at h
  by_cases hsame : job.isActive = isActive
  · rw [if_pos hsame] at h
    obtain rfl := Option.some.inj h
    refine ⟨rfl, .inl ⟨?_, rfl⟩⟩
    rw [← hsame]
  · rw [if_neg hsame] at h
    obtain ⟨flushed, hflush, h⟩ := Option.bind_eq_some_iff.mp h
    obtain rfl := Option.some.inj h
    obtain ⟨hscripts, hjobs⟩ := flushJob_some hflush
    exact ⟨hscripts, hjobs⟩

theorem deleteCronJobFrom_some {job : CronJob}
    (h : deleteCronJobFrom call id job db = some db') :
    Flushed call.now id job { job with isDeleted := true, isActive := false } db db' := by
  obtain ⟨flushed, hflush, h⟩ := Option.bind_eq_some_iff.mp h
  obtain rfl := Option.some.inj h
  obtain ⟨hscripts, hjobs⟩ := flushJob_some hflush
  exact ⟨hscripts, hjobs⟩

/-- A new script is there and not deleted. -/
theorem createScriptFrom_some {body : ScriptCreate} {path : Execution.Policy.Path}
    (h : createScriptFrom call body path db = some db') :
    db'.cronJobs = db.cronJobs ∧ ∃ script, db'.scripts = db.scripts.set db.scripts.nextId script ∧
      script.isDeleted = false := by
  unfold createScriptFrom at h
  dsimp only at h
  split_ifs at h
  obtain rfl := Option.some.inj h
  exact ⟨rfl, _, rfl, rfl⟩

/-- An update of a script neither deletes it nor brings it back. -/
theorem updateScriptFrom_some {script edited : Script} {changes : List Change}
    (hedited : edited.isDeleted = script.isDeleted)
    (h : updateScriptFrom call id script edited changes db = some db') :
    db'.cronJobs = db.cronJobs ∧
      (db'.scripts = db.scripts ∨ ∃ stored written, db.scripts.get? id = some stored ∧
        db'.scripts = db.scripts.set id written ∧ written.isDeleted = stored.isDeleted) := by
  unfold updateScriptFrom at h
  split_ifs at h with hnil
  · obtain rfl := Option.some.inj h
    exact ⟨rfl, .inl rfl⟩
  · obtain ⟨flushed, hflush, h⟩ := Option.bind_eq_some_iff.mp h
    obtain rfl := Option.some.inj h
    rw [recordScriptUpdate_cronJobs, recordScriptUpdate_scripts]
    unfold flushScript at hflush
    split at hflush
    · split_ifs at hflush
      obtain rfl := Option.some.inj hflush
      exact ⟨rfl, .inl rfl⟩
    · rename_i stored hstored
      dsimp only at hflush
      split_ifs at hflush with hsame
      · obtain rfl := Option.some.inj hflush
        exact ⟨rfl, .inr ⟨stored, _, hstored, rfl, rfl⟩⟩
      · obtain rfl := Option.some.inj hflush
        refine ⟨rfl, .inr ⟨stored, _, hstored, rfl, ?_⟩⟩
        rw [writeScript, hedited, writeColumn_same]

theorem deleteScriptFrom_some {script : Script} (hscript : script.isDeleted = false)
    (h : deleteScriptFrom call id script db = some db') :
    db'.cronJobs = db.cronJobs ∧ ∃ stored deleted, db.scripts.get? id = some stored ∧
      db'.scripts = db.scripts.set id deleted ∧ deleted.isDeleted = true := by
  obtain ⟨stored, hstored, rfl⟩ := Option.map_eq_some_iff.mp h
  refine ⟨rfl, stored, _, hstored, rfl, writeColumn_ne ?_⟩
  rw [hscript]
  exact Bool.false_ne_true.symm

theorem accept_known {op : Operation} {stage : Stage} (h : accept db op = .ok stage) :
    Known P stage.progress := by
  cases op with
  | createCronJob sender body =>
    obtain ⟨call, -, h⟩ := bind_eq_ok.mp h
    obtain ⟨checked, hbody, h⟩ := bind_eq_ok.mp h
    cases h
    obtain ⟨-, s, -, hs⟩ := CronJobCreate.validate_ok (mapError_eq_ok.mp hbody)
    exact ⟨s, hs⟩
  | updateCronJob sender id body =>
    obtain ⟨call, -, h⟩ := bind_eq_ok.mp h
    obtain ⟨checked, hbody, h⟩ := bind_eq_ok.mp h
    cases h
    exact Updates.validate_texts (mapError_eq_ok.mp hbody)
  | updateCronJobStatus sender id isActive =>
    obtain ⟨call, -, h⟩ := bind_eq_ok.mp h
    cases h
    trivial
  | deleteCronJob sender id =>
    obtain ⟨call, -, h⟩ := bind_eq_ok.mp h
    cases h
    trivial
  | createScript sender host body =>
    obtain ⟨call, -, h⟩ := bind_eq_ok.mp h
    obtain ⟨checked, -, h⟩ := bind_eq_ok.mp h
    cases h
    trivial
  | updateScript sender host id body =>
    obtain ⟨call, -, h⟩ := bind_eq_ok.mp h
    obtain ⟨checked, -, h⟩ := bind_eq_ok.mp h
    cases h
    trivial
  | deleteScript sender id =>
    obtain ⟨call, -, h⟩ := bind_eq_ok.mp h
    cases h
    trivial

theorem getScript_kept {script : Script} (h : getScript db id = .ok script) :
    script.isDeleted = false := (liveScript_eq_some.mp (getScript_ok h)).2

theorem editScript_kept {host : Execution.Policy.Host} {body : ScriptUpdate}
    {script edited : Script} {changes : List Change}
    (h : editScript db host id body script = .ok (edited, changes)) :
    edited.isDeleted = script.isDeleted := by
  obtain ⟨⟨name, onName⟩, -, h⟩ := bind_eq_ok.mp h
  obtain ⟨⟨path, onPath⟩, -, h⟩ := bind_eq_ok.mp h
  cases h
  rfl

theorem accepted_known {request : Accepted} {next : Progress}
    (hP : ∀ id job, db.liveJob id = some job → P job) (hknown : Known P (.accepted request))
    (h : request.read call db = .ok next) : Known P next := by
  cases request with
  | createCronJob body =>
    obtain ⟨⟨⟩, -, h⟩ := bind_eq_ok.mp h
    cases h
    exact hknown
  | updateCronJob id body =>
    obtain ⟨job, hjob, h⟩ := bind_eq_ok.mp h
    cases h
    exact ⟨hknown, hP id job (getJobForWrite_ok (mapError_eq_ok.mp hjob)).1⟩
  | updateCronJobStatus id isActive =>
    obtain ⟨job, hjob, h⟩ := bind_eq_ok.mp h
    cases h
    exact hP id job (getJobForWrite_ok (mapError_eq_ok.mp hjob)).1
  | deleteCronJob id =>
    obtain ⟨job, hjob, h⟩ := bind_eq_ok.mp h
    cases h
    exact hP id job (getJobForWrite_ok (mapError_eq_ok.mp hjob)).1
  | createScript host body =>
    obtain ⟨path, -, h⟩ := bind_eq_ok.mp h
    split_ifs at h
    cases h
    trivial
  | updateScript host id body =>
    obtain ⟨script, -, h⟩ := bind_eq_ok.mp h
    cases h
    trivial
  | deleteScript id =>
    obtain ⟨script, hscript, h⟩ := bind_eq_ok.mp h
    cases h
    exact getScript_kept (mapError_eq_ok.mp hscript)

theorem loaded_known {request : Loaded} {next : Progress} (hknown : Known P (.loaded request))
    (h : request.read db = .ok next) : Known P next := by
  cases request with
  | updateCronJob id body job =>
    obtain ⟨⟨⟩, -, h⟩ := bind_eq_ok.mp h
    cases h
    exact hknown
  | updateScript host id body script =>
    obtain ⟨⟨edited, changes⟩, hedit, h⟩ := bind_eq_ok.mp h
    cases h
    exact editScript_kept (mapError_eq_ok.mp hedit)
  | deleteScript id script =>
    rw [Loaded.read] at h
    split_ifs at h
    cases h
    exact hknown

/-- What is known of the requests in progress stays known, whatever the others commit. -/
theorem handler_knows {I : Database → Prop} {C : Database → Operation → Stage → Prop}
    (hP : ∀ db, I db → ∀ id job, db.liveJob id = some job → P job) :
    handler.Knows I C fun _ _ stage ↦ Known P stage.progress where
  accept db op stage _ h := accept_known (toOption_eq_some.mp h)
  read db op stage next hI hknown _ h := by
    obtain ⟨call, progress⟩ := stage
    cases progress with
    | accepted request =>
      obtain ⟨progress, hread, rfl⟩ := Option.map_eq_some_iff.mp h
      exact accepted_known (hP db hI) hknown (toOption_eq_some.mp hread)
    | loaded request =>
      obtain ⟨progress, hread, rfl⟩ := Option.map_eq_some_iff.mp h
      exact loaded_known hknown (toOption_eq_some.mp hread)
    | ready request => cases h
  commit _ _ _ _ _ _ _ _ _ _ _ hknown := hknown

end

/-- Whatever the order of their steps, requests whose commits find what they have read leave the
database that they leave when they are served one after another, in the order of their commits. -/
theorem interleaved_serial {db : Database} {actions : List (Action Operation)}
    (h : Guarded handler.step (handler.Committing (handler.Fresh 2)) (begin db) actions) :
    Always handler.step (fun w ↦
      exec (fun db op ↦ (op.commit db).toOption.map Prod.fst) db w.committed = some w.store)
      (begin db) actions := by
  have halone : handler.serve 2 = fun db (op : Operation) ↦ (op.commit db).toOption.map Prod.fst :=
    funext₂ fun _ _ ↦ serve_alone _
  rw [← halone]
  exact Handler.serial_of_fresh h

section Sample

/-- A job is paused while another request finds it running already. -/
def crossing : List (Action Operation) :=
  [.send (.updateCronJobStatus ⟨1, 5, none⟩ 1 true), .read 1,
    .send (.updateCronJobStatus ⟨1, 6, none⟩ 1 false), .read 2, .commit 1, .commit 2]

theorem interleaved_serial_crossing :
    (exec handler.step (begin sample) crossing).map (fun w ↦ w.committed.length) = some 2 ∧
    Guarded handler.step (handler.Committing (handler.Fresh 2)) (begin sample) crossing ∧
    Always handler.step (fun w ↦
      exec (fun db op ↦ (op.commit db).toOption.map Prod.fst) sample w.committed = some w.store)
      (begin sample) crossing := by
  have hfresh : Guarded handler.step (handler.Committing (handler.Fresh 2)) (begin sample)
      crossing := by
    refine guarded_cons rfl trivial (guarded_cons rfl trivial (guarded_cons rfl trivial
      (guarded_cons rfl trivial (guarded_cons rfl ?_ (guarded_cons rfl ?_ trivial)))))
    · intro _ _ hk _
      obtain ⟨rfl, rfl⟩ := Prod.mk.inj (Option.some.inj hk)
      rfl
    · intro _ _ hk _
      obtain ⟨rfl, rfl⟩ := Prod.mk.inj (Option.some.inj hk)
      rfl
  exact ⟨by decide, hfresh, interleaved_serial hfresh⟩

end Sample

end CronPanel.Access.Interleaved
