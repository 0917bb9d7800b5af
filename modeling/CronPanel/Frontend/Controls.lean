import CronPanel.Api.Pages
import CronPanel.Access.Writes
import CronPanel.Access.References
import CronPanel.Sessions.Machine

namespace CronPanel.Frontend.Controls

open Library.Strings Library.Tables Library.Fallible Library.Run Core.Permissions Core.Security
open Data.Records Data.Repositories Schemas.Bodies Services.CronJobs Services.Scripts
open Services.Executions Api.Errors Api.CronJobs Api.Operations Api.Executions Api.Requests
open Api.Pages Access.Panel Access.Writes Access.References

/-- What `perms` of `cronjobs.js` answers. -/
structure Perms where
  read : Bool
  create : Bool
  update : Bool
  enable : Bool
  del : Bool
  execute : Bool

/-- `perms` of `cronjobs.js`, for the role of the current user. -/
def perms (role : Text) : Perms where
  read := role = "admin".toList || role = "operator".toList || role = "viewer".toList
  create := role = "admin".toList || role = "operator".toList
  update := role = "admin".toList || role = "operator".toList
  enable := role = "admin".toList || role = "operator".toList
  del := role = "admin".toList
  execute := role = "admin".toList || role = "operator".toList

/-- `manage` of `perms` of `scripts.js`. -/
def managesScripts (role : Text) : Bool := role = "admin".toList

/-- The buttons of the two pages, those of a row with what the row shows. -/
inductive Control
  | newJob
  | run (job : CronJobResponse)
  | toggle (job : CronJobResponse)
  | edit (job : CronJobResponse)
  | history (job : CronJobResponse)
  | remove (job : CronJobResponse)
  | newScript
  | editScript (script : ScriptResponse)
  | removeScript (script : ScriptResponse)

/-- An identifier that is not falsy. -/
def isSet (id : Option ℕ) : Bool := id.any (· ≠ 0)

/-- The button is there and is not disabled. -/
def offered (role : Text) : Control → Bool
  | .newJob => (perms role).create
  | .run job => (perms role).execute && !(!job.isActive || !isSet job.scriptId)
  | .toggle _ => (perms role).enable
  | .edit _ => (perms role).update
  | .history _ => true
  | .remove _ => (perms role).del
  | .newScript | .editScript _ | .removeScript _ => managesScripts role

/-- What is entered in the dialogs, and what a run would find. -/
structure Entry where
  jobCreate : CronJobCreate
  jobUpdate : CronJobUpdate
  scriptCreate : ScriptCreate
  scriptUpdate : ScriptUpdate
  host : Execution.Policy.Host
  environment : Environment

/-- The answer to the request that a button sends. -/
def press (sender : Sender) (entry : Entry) (db : Database) : Control → Except HttpError Unit
  | .newJob => (Api.CronJobs.createCronJob sender entry.jobCreate db).map fun _ ↦ ()
  | .run job => (executeCronJob entry.environment sender job.id db).2.map fun _ ↦ ()
  | .toggle job => (Api.CronJobs.updateCronJobStatus sender job.id (!job.isActive) db).map fun _ ↦ ()
  | .edit job => (Api.CronJobs.updateCronJob sender job.id entry.jobUpdate db).map fun _ ↦ ()
  | .history job => (getCronJobHistory sender job.id 100 0 db).map fun _ ↦ ()
  | .remove job => (Api.CronJobs.deleteCronJob sender job.id db).map fun _ ↦ ()
  | .newScript => (Api.Operations.createScript sender entry.host entry.scriptCreate db).map fun _ ↦ ()
  | .editScript script =>
    (Api.Operations.updateScript sender entry.host script.id entry.scriptUpdate db).map fun _ ↦ ()
  | .removeScript script => (Api.Operations.deleteScript sender script.id db).map fun _ ↦ ()

/-- The page has been loaded with the row that a button stands beside. -/
def IsShown (sender : Sender) (nextRun : ℕ → Option Instant) (filters : CronJobFilter)
    (db : Database) : Control → Prop
  | .run job | .toggle job | .edit job | .history job | .remove job =>
    ∃ rows, listCronJobs sender nextRun filters db = .ok rows ∧ job ∈ rows
  | .editScript script | .removeScript script =>
    ∃ rows, listScripts sender db = .ok rows ∧ script ∈ rows
  | .newJob | .newScript => True

/-- The request is refused for what the page has known: who asks, and what is shown of the row. -/
def isTurnedAway (e : HttpError) : Bool :=
  isDenial e || e = ofExecutionError .jobInactive || e = ofExecutionError .scriptNotLinked

/-- The scripts are numbered from 1 on, and the jobs refer to scripts. -/
structure Numbered (db : Database) : Prop where
  linked : Linked db
  scripts : db.scripts.get? 0 = none

section

variable {db : Database} {sender : Sender} {user : User} {entry : Entry} {e : HttpError}
variable {α β ε : Type}

theorem mapError_eq_error {ε' : Type} {x : Except ε α} {f : ε → ε'} {e : ε'} :
    x.mapError f = .error e ↔ ∃ e', x = .error e' ∧ f e' = e := by
  cases x <;> simp [Except.mapError]

theorem map_eq_error {x : Except ε α} {f : α → β} {e : ε} :
    x.map f = .error e ↔ x = .error e := by
  cases x <;> simp [Except.map]

theorem bind_eq_error {x : Except ε α} {f : α → Except ε β} {e : ε} :
    (x >>= f) = .error e ↔ x = .error e ∨ ∃ a, x = .ok a ∧ f a = .error e := by
  cases x with
  | error e' => simp [bind, Except.bind]
  | ok a => simp [bind, Except.bind]

/-- No answer of it refuses a request. -/
def Grants (x : Except HttpError α) : Prop := ∀ e, x = .error e → isTurnedAway e = false

theorem grants_map {x : Except HttpError α} {f : α → β} : Grants (x.map f) ↔ Grants x := by
  simp only [Grants, map_eq_error]

theorem grants_mapError {x : Except ε α} {f : ε → HttpError}
    (h : ∀ e, x = .error e → isTurnedAway (f e) = false) : Grants (x.mapError f) := by
  intro e he
  obtain ⟨e', hx, rfl⟩ := mapError_eq_error.mp he
  exact h e' hx

theorem grants_body {check : Except (List FieldError) α} {f : α → Except HttpError β}
    (h : ∀ body, Grants (f body)) : Grants (checkBody check >>= f) := by
  intro e he
  rcases bind_eq_error.mp he with he | ⟨body, -, he⟩
  · obtain ⟨errors, -, rfl⟩ := mapError_eq_error.mp he
    rfl
  · exact h body e he

/-- A request that only its permission can refuse. -/
theorem grants_iff (hload : loadUser db sender.userId = some user) {permission : Permission}
    {f : Call → Except HttpError α}
    (h : Grants (f ⟨⟨sender.userId, user⟩, sender.now, sender.ipAddress⟩)) :
    Grants (requirePermission db sender permission >>= f) ↔ hasPermission user.role permission := by
  unfold requirePermission
  rw [hload]
  dsimp only
  split_ifs with hpermission
  · exact iff_of_true h hpermission
  · refine iff_of_false ?_ hpermission
    intro hgrants
    exact absurd (hgrants forbidden rfl) (by decide)

theorem perms_of_role (role : Role) :
    (perms role.name).create = hasPermission role .cronJobsCreate ∧
      (perms role.name).update = hasPermission role .cronJobsUpdate ∧
      (perms role.name).enable = hasPermission role .cronJobsEnable ∧
      (perms role.name).del = hasPermission role .cronJobsDelete ∧
      (perms role.name).execute = hasPermission role .executionsExecute := by
  cases role <;> decide

theorem managesScripts_of_role (role : Role) :
    managesScripts role.name = hasPermission role .scriptsCreate ∧
      managesScripts role.name = hasPermission role .scriptsUpdate ∧
      managesScripts role.name = hasPermission role .scriptsDelete := by
  cases role <;> decide

theorem reads_of_role (role : Role) : hasPermission role .cronJobsRead := by
  cases role <;> decide

/-- A row of the page is one of a job that its reader may manage. -/
structure Row (db : Database) (actor : Actor) (job : CronJobResponse) (row : CronJob) : Prop where
  live : db.liveJob job.id = some row
  managed : canManage row actor
  name : job.name = row.name
  description : job.description = row.description
  command : job.command = row.command
  scheduleExpression : job.scheduleExpression = row.scheduleExpression
  isActive : job.isActive = row.isActive
  scriptId : job.scriptId = row.scriptId

theorem row_of_shown (hload : loadUser db sender.userId = some user)
    {nextRun : ℕ → Option Instant} {filters : CronJobFilter} {rows : List CronJobResponse}
    (h : listCronJobs sender nextRun filters db = .ok rows) {job : CronJobResponse}
    (hmem : job ∈ rows) : ∃ row, Row db ⟨sender.userId, user⟩ job row := by
  obtain ⟨call, hcall, h⟩ := bind_eq_ok.mp h
  obtain ⟨user', huser, -, -, rfl⟩ := requirePermission_ok hcall
  obtain rfl := Option.some.inj (huser.symm.trans (Option.filter_eq_some_iff.mp hload).1)
  obtain ⟨⟨k, row⟩, hrow, hanswer⟩ := exists_of_mapM h hmem
  obtain ⟨description, -, hresponse⟩ := bind_eq_ok.mp (mapError_eq_ok.mp hanswer)
  cases hresponse
  have hlisted := List.mem_of_mem_drop (List.mem_of_mem_take hrow)
  obtain ⟨hget, haccepts⟩ := List.mem_filter.mp (List.mem_reverse.mp hlisted)
  simp only [CronJobFilter.accepts, Bool.and_eq_true, Bool.not_eq_true'] at haccepts
  obtain ⟨⟨⟨⟨hkept, howner⟩, -⟩, -⟩, -⟩ := haccepts
  refine ⟨row, Database.liveJob_eq_some.mpr ⟨Table.mem_rows.mp hget, hkept⟩, ?_, rfl, rfl, rfl, rfl,
    rfl, rfl⟩
  refine canManage_iff.mpr ?_
  split_ifs at howner with hfull
  · exact .inr hfull
  · exact .inl (beq_iff_eq.mp howner).symm

theorem getJobForWrite_row {actor : Actor} {job : CronJobResponse} {row : CronJob}
    (h : Row db actor job row) : getJobForWrite db job.id actor = .ok row := by
  rw [getJobForWrite, getJobForRead, h.live, Option.elim_some, ok_bind, if_pos h.managed]

theorem ofPathError_grants (e : Execution.Policy.PathError) :
    isTurnedAway (ofPathError e) = false := by
  cases e with
  | raised => rfl
  | _ => decide

theorem ofScriptError_grants {e : ScriptError} (hfound : e ≠ .notFound) :
    isTurnedAway (ofScriptError e) = false := by
  cases e with
  | notFound => exact absurd rfl hfound
  | path e => exact ofPathError_grants e
  | _ => decide

theorem validateScriptReference_error {scriptId : Option ℕ} {e : CronJobError}
    (h : validateScriptReference db scriptId = .error e) : e = .scriptReferenceNotFound := by
  unfold validateScriptReference at h
  split at h
  · cases h
  · split_ifs at h
    exact (Except.error.inj h).symm

theorem applySchedule_error {job : CronJob} {expression : Text} {e : CronJobError}
    (h : applySchedule job expression = .error e) : ∃ error, e = .raised error := by
  unfold applySchedule at h
  split at h
  · cases h
  · exact ⟨_, (Except.error.inj h).symm⟩
  · exact ⟨_, (Except.error.inj h).symm⟩

theorem editCronJob_error {body : CronJobUpdate} {job : CronJob} {e : CronJobError}
    (h : editCronJob body job = .error e) : ∃ error, e = .raised error := by
  rcases bind_eq_error.mp h with h | ⟨⟨edited, changes⟩, -, h⟩
  · unfold setSchedule at h
    split at h
    · cases h
    · split_ifs at h
      rcases bind_eq_error.mp h with h | ⟨changed, -, h⟩
      · exact applySchedule_error h
      · cases h
  · cases h

theorem createCronJob_grants (call : Call) (body : CronJobCreate) :
    Grants ((Services.CronJobs.createCronJob call body db).mapError ofCronJobError) := by
  refine grants_mapError fun e he ↦ ?_
  rcases bind_eq_error.mp he with he | ⟨⟨⟩, -, he⟩
  · obtain rfl := validateScriptReference_error he
    decide
  · rcases bind_eq_error.mp he with he | ⟨job, -, he⟩
    · obtain ⟨error, rfl⟩ := applySchedule_error he
      rfl
    · cases he

theorem updateCronJob_grants (call : Call) (body : CronJobUpdate) {job : CronJobResponse}
    {row : CronJob} (h : Row db call.actor job row) :
    Grants ((Services.CronJobs.updateCronJob call job.id body db).mapError ofCronJobError) := by
  refine grants_mapError fun e he ↦ ?_
  rw [Services.CronJobs.updateCronJob, getJobForWrite_row h, ok_bind] at he
  rcases bind_eq_error.mp he with he | ⟨⟨⟩, -, he⟩
  · obtain rfl := validateScriptReference_error he
    decide
  · rcases bind_eq_error.mp he with he | ⟨⟨edited, changes⟩, -, he⟩
    · obtain ⟨error, rfl⟩ := editCronJob_error he
      rfl
    · dsimp only at he
      split_ifs at he

theorem updateCronJobStatus_grants (call : Call) (isActive : Bool) {job : CronJobResponse}
    {row : CronJob} (h : Row db call.actor job row) :
    Grants ((Services.CronJobs.updateCronJobStatus call job.id isActive db).mapError
      ofCronJobError) := by
  refine grants_mapError fun e he ↦ ?_
  rw [Services.CronJobs.updateCronJobStatus, getJobForWrite_row h, ok_bind] at he
  split_ifs at he

theorem deleteCronJob_grants (call : Call) {job : CronJobResponse} {row : CronJob}
    (h : Row db call.actor job row) :
    Grants ((Services.CronJobs.deleteCronJob call job.id db).mapError ofCronJobError) := by
  refine grants_mapError fun e he ↦ ?_
  rw [Services.CronJobs.deleteCronJob, getJobForWrite_row h, ok_bind] at he
  cases he

theorem listCronJobHistory_grants {actor : Actor} {job : CronJobResponse} {row : CronJob}
    (h : Row db actor job row) :
    Grants ((listCronJobHistory db job.id actor 100 0).mapError ofCronJobError) := by
  refine grants_mapError fun e he ↦ ?_
  rw [listCronJobHistory, (Database.liveJob_eq_some.mp h.live).1] at he
  dsimp only at he
  rw [if_pos h.managed] at he
  cases he

theorem ofExecutionError_grants {e : ExecutionError}
    (h : e = .scriptUnavailable ∨ (∃ error, e = .path error) ∨ e = .unexpected) :
    isTurnedAway (ofExecutionError e) = false := by
  rcases h with rfl | ⟨error, rfl⟩ | rfl
  · decide
  · exact ofPathError_grants error
  · rfl

theorem startRun_error {env : Environment} {call : RunCall} {k : ℕ} {e : ExecutionError}
    (hactive : call.job.isActive) (hscript : call.job.scriptId = some k)
    (h : startRun env call db = .error e) : e = .scriptUnavailable ∨ ∃ error, e = .path error := by
  rw [startRun, hactive, Bool.not_true, if_neg Bool.false_ne_true] at h
  rcases bind_eq_error.mp h with h | ⟨resolved, -, h⟩
  · rw [resolveScript, hscript] at h
    dsimp only at h
    split at h
    · exact .inl (Except.error.inj h).symm
    · split_ifs at h
      · exact .inl (Except.error.inj h).symm
      · rcases bind_eq_error.mp h with h | ⟨path, -, h⟩
        · obtain ⟨error, -, rfl⟩ := mapError_eq_error.mp h
          exact .inr ⟨error, rfl⟩
        · cases h
  · cases h

/-- A run is refused exactly when its job is paused or has no script. -/
theorem run_grants_iff (env : Environment) (call : RunCall) :
    Grants ((run env call db).2.mapError ofExecutionError) ↔
      call.job.isActive ∧ call.job.scriptId.isSome := by
  cases hactive : call.job.isActive with
  | false =>
    refine iff_of_false ?_ fun h ↦ Bool.false_ne_true h.1
    intro h
    have hstart : startRun env call db = .error .jobInactive := by
      rw [startRun, hactive]
      rfl
    rw [run, hstart] at h
    exact absurd (h _ rfl) (by decide)
  | true =>
    cases hscript : call.job.scriptId with
    | none =>
      refine iff_of_false ?_ fun h ↦ Bool.false_ne_true h.2
      intro h
      have hstart : startRun env call db = .error .scriptNotLinked := by
        rw [startRun, hactive, resolveScript, hscript]
        rfl
      rw [run, hstart] at h
      exact absurd (h _ rfl) (by decide)
    | some k =>
      refine iff_of_true ?_ ⟨rfl, rfl⟩
      refine grants_mapError fun e he ↦ ofExecutionError_grants ?_
      unfold run at he
      split at he
      · obtain rfl := Except.error.inj he
        rename_i hstart
        exact (startRun_error hactive hscript hstart).imp_right .inl
      · split at he
        · obtain rfl := Except.error.inj he
          rename_i hfinish
          exact .inr (finishRun_error hfinish)
        · cases he

theorem isSet_iff (hnumbered : Numbered db) {actor : Actor} {job : CronJobResponse} {row : CronJob}
    (h : Row db actor job row) : isSet job.scriptId ↔ row.scriptId.isSome := by
  rw [h.scriptId]
  cases hscript : row.scriptId with
  | none => exact iff_of_false Bool.false_ne_true Bool.false_ne_true
  | some k =>
    refine iff_of_true ?_ rfl
    obtain ⟨script, hlive⟩ := hnumbered.linked job.id row k h.live hscript
    refine decide_eq_true ?_
    rintro rfl
    have hget := (Database.liveScript_eq_some.mp hlive).1
    rw [hnumbered.scripts] at hget
    cases hget

theorem executeCronJob_grants_iff (hload : loadUser db sender.userId = some user)
    (hnumbered : Numbered db) {job : CronJobResponse} {row : CronJob}
    (h : Row db ⟨sender.userId, user⟩ job row) (env : Environment) :
    Grants (executeCronJob env sender job.id db).2 ↔
      hasPermission user.role .executionsExecute ∧ job.isActive ∧ isSet job.scriptId := by
  have hcall : requirePermission db sender .executionsExecute =
      if hasPermission user.role .executionsExecute then
        .ok ⟨⟨sender.userId, user⟩, sender.now, sender.ipAddress⟩ else .error forbidden := by
    rw [requirePermission, hload]
  unfold executeCronJob
  rw [hcall]
  by_cases hpermission : hasPermission user.role .executionsExecute
  · rw [if_pos hpermission]
    have hmanual : manualCall db ⟨⟨sender.userId, user⟩, sender.now, sender.ipAddress⟩ job.id =
        .ok ⟨job.id, row, .manual, some sender.userId, some user.username, sender.ipAddress⟩ := by
      rw [manualCall, h.live]
      exact if_pos h.managed
    dsimp only
    rw [runCronJob, hmanual]
    dsimp only
    rw [run_grants_iff, isSet_iff hnumbered h, h.isActive]
    exact (and_iff_right hpermission).symm
  · rw [if_neg hpermission]
    refine iff_of_false ?_ fun hall ↦ hpermission hall.1
    intro hgrants
    exact absurd (hgrants forbidden rfl) (by decide)

theorem canonicalize_error {host : Execution.Policy.Host} {path : Text} {e : ScriptError}
    (h : canonicalize host path = .error e) : ∃ error, e = .path error := by
  unfold canonicalize at h
  split at h
  · cases h
  · exact ⟨_, (Except.error.inj h).symm⟩

theorem createScript_grants (call : Call) (host : Execution.Policy.Host) (body : ScriptCreate) :
    Grants ((Services.Scripts.createScript call host body db).mapError ofScriptError) := by
  refine grants_mapError fun e he ↦ ofScriptError_grants ?_
  rintro rfl
  rcases bind_eq_error.mp he with he | ⟨validated, -, he⟩
  · obtain ⟨error, herror⟩ := canonicalize_error he
    cases herror
  · dsimp only at he
    split_ifs at he <;> cases he

theorem editScript_error {host : Execution.Policy.Host} {id : ℕ} {body : ScriptUpdate}
    {script : Script} {e : ScriptError} (h : editScript db host id body script = .error e) :
    e ≠ .notFound := by
  rintro rfl
  rcases bind_eq_error.mp h with h | ⟨⟨name, onName⟩, -, h⟩
  · unfold setName at h
    dsimp only at h
    split_ifs at h
    cases h
  · rcases bind_eq_error.mp h with h | ⟨⟨path, onPath⟩, -, h⟩
    · unfold setPath at h
      split at h
      · cases h
      · split_ifs at h
        rcases bind_eq_error.mp h with h | ⟨validated, -, h⟩
        · obtain ⟨error, herror⟩ := canonicalize_error h
          cases herror
        · cases h
    · cases h

theorem updateScript_grants (call : Call) (host : Execution.Policy.Host) (body : ScriptUpdate)
    {id : ℕ} {row : Script} (h : db.liveScript id = some row) :
    Grants ((Services.Scripts.updateScript call host id body db).mapError ofScriptError) := by
  refine grants_mapError fun e he ↦ ofScriptError_grants ?_
  rintro rfl
  rw [Services.Scripts.updateScript, getScript, h, Option.elim_some, ok_bind] at he
  rcases bind_eq_error.mp he with he | ⟨⟨edited, changes⟩, -, he⟩
  · exact editScript_error he rfl
  · dsimp only at he
    split_ifs at he
    cases he

theorem deleteScript_grants (call : Call) {id : ℕ} {row : Script}
    (h : db.liveScript id = some row) :
    Grants ((Services.Scripts.deleteScript call id db).mapError ofScriptError) := by
  refine grants_mapError fun e he ↦ ofScriptError_grants ?_
  rintro rfl
  rw [Services.Scripts.deleteScript, getScript, h, Option.elim_some, ok_bind] at he
  split_ifs at he
  cases he

theorem Numbered.of_scripts {db' : Database} (h : Numbered db) (hlinked : Linked db')
    (hscripts : db'.scripts = db.scripts) : Numbered db' := ⟨hlinked, hscripts ▸ h.scripts⟩

theorem Numbered.of_set {db' : Database} (h : Numbered db) (hlinked : Linked db') {id : ℕ}
    {stored : Script} (hscripts : db'.scripts = db.scripts.set id stored) (hid : id ≠ 0) :
    Numbered db' := by
  refine ⟨hlinked, ?_⟩
  rw [hscripts, Table.get?_set_ne _ _ hid.symm]
  exact h.scripts

theorem Numbered.ne_zero (h : Numbered db) {id : ℕ} {script : Script}
    (hlive : db.liveScript id = some script) : id ≠ 0 := by
  rintro rfl
  have hget := (Database.liveScript_eq_some.mp hlive).1
  rw [h.scripts] at hget
  cases hget

/-- The page offers a button exactly when the answer to it refuses nothing that the page knows. -/
theorem offered_iff (hload : loadUser db sender.userId = some user) (hnumbered : Numbered db)
    {nextRun : ℕ → Option Instant} {filters : CronJobFilter} {control : Control}
    (hshown : IsShown sender nextRun filters db control) :
    offered user.role.name control ↔ Grants (press sender entry db control) := by
  obtain ⟨hcreate, hupdate, henable, hdel, hexecute⟩ := perms_of_role user.role
  obtain ⟨hnewScript, heditScript, hremoveScript⟩ := managesScripts_of_role user.role
  cases control with
  | newJob =>
    rw [press, grants_map, Api.CronJobs.createCronJob, grants_iff hload, offered, hcreate]
    exact grants_body fun body ↦ createCronJob_grants _ body
  | run job =>
    obtain ⟨rows, hrows, hmem⟩ := hshown
    obtain ⟨row, hrow⟩ := row_of_shown hload hrows hmem
    rw [press, grants_map, executeCronJob_grants_iff hload hnumbered hrow, offered, hexecute]
    simp
  | toggle job =>
    obtain ⟨rows, hrows, hmem⟩ := hshown
    obtain ⟨row, hrow⟩ := row_of_shown hload hrows hmem
    rw [press, grants_map, Api.CronJobs.updateCronJobStatus, grants_iff hload, offered, henable]
    exact updateCronJobStatus_grants _ _ hrow
  | edit job =>
    obtain ⟨rows, hrows, hmem⟩ := hshown
    obtain ⟨row, hrow⟩ := row_of_shown hload hrows hmem
    rw [press, grants_map, Api.CronJobs.updateCronJob, grants_iff hload, offered, hupdate]
    exact grants_body fun body ↦ updateCronJob_grants _ body hrow
  | history job =>
    obtain ⟨rows, hrows, hmem⟩ := hshown
    obtain ⟨row, hrow⟩ := row_of_shown hload hrows hmem
    rw [press, grants_map, getCronJobHistory, grants_iff hload, offered]
    · exact iff_of_true rfl (reads_of_role user.role)
    · intro e he
      rcases bind_eq_error.mp he with he | ⟨entries, -, he⟩
      · exact listCronJobHistory_grants hrow e he
      · cases he
  | remove job =>
    obtain ⟨rows, hrows, hmem⟩ := hshown
    obtain ⟨row, hrow⟩ := row_of_shown hload hrows hmem
    rw [press, grants_map, Api.CronJobs.deleteCronJob, grants_iff hload, offered, hdel]
    exact deleteCronJob_grants _ hrow
  | newScript =>
    rw [press, grants_map, Api.Operations.createScript, grants_iff hload, offered, hnewScript]
    exact grants_body fun body ↦ createScript_grants _ _ body
  | editScript script =>
    obtain ⟨rows, hrows, hmem⟩ := hshown
    obtain ⟨row, hlive⟩ := liveScript_of_listed hrows hmem
    rw [press, grants_map, Api.Operations.updateScript, grants_iff hload, offered, heditScript]
    exact grants_body fun body ↦ updateScript_grants _ _ body hlive
  | removeScript script =>
    obtain ⟨rows, hrows, hmem⟩ := hshown
    obtain ⟨row, hlive⟩ := liveScript_of_listed hrows hmem
    rw [press, grants_map, Api.Operations.deleteScript, grants_iff hload, offered, hremoveScript]
    exact deleteScript_grants _ hlive

theorem commit_numbered {db' : Database} (h : Numbered db) {op : Operation} {n : Notification}
    (hcommit : op.commit db = .ok (db', n)) : Numbered db' := by
  have hlinked := commit_linked h.linked hcommit
  obtain ⟨call, hperformed⟩ := Api.Frames.commit_ok hcommit
  cases op with
  | createCronJob sender body =>
    obtain ⟨-, checked, id, hc⟩ := hperformed
    obtain ⟨⟨⟩, -, hc⟩ := bind_eq_ok.mp hc
    obtain ⟨job, -, hc⟩ := bind_eq_ok.mp hc
    cases hc
    exact h.of_scripts hlinked rfl
  | updateCronJob sender id body =>
    obtain ⟨db₁, hc, hsame⟩ := bind_eq_ok.mp hcommit
    cases hsame
    exact h.of_scripts hlinked (Scheduler.Eligibility.updateCronJob_commit hc).2.1
  | updateCronJobStatus sender id isActive =>
    exact h.of_scripts hlinked (updateCronJobStatus_ok hperformed.2).1
  | deleteCronJob sender id => exact h.of_scripts hlinked (deleteCronJob_ok hperformed.2).1
  | createScript sender host body =>
    obtain ⟨-, checked, id, hc⟩ := hperformed
    obtain ⟨-, stored, hscripts, -⟩ := createScript_live hc
    exact h.of_set hlinked hscripts (Nat.succ_ne_zero _)
  | updateScript sender host id body =>
    obtain ⟨-, checked, hc⟩ := hperformed
    obtain ⟨script, hscript, -⟩ := bind_eq_ok.mp hc
    obtain ⟨-, stored, hscripts, -⟩ := updateScript_live hc
    exact h.of_set hlinked hscripts (h.ne_zero (getScript_ok hscript))
  | deleteScript sender id =>
    obtain ⟨-, -, script, stored, hlive, hscripts⟩ := deleteScript_ok hperformed.2
    exact h.of_set hlinked hscripts (h.ne_zero hlive)

theorem Numbered.run {db' : Database} (h : Numbered db) (hframe : RunFrame db db') :
    Numbered db' := by
  refine h.of_scripts ?_ hframe.scripts
  intro id job k hjob hk
  unfold Database.liveJob at hjob
  rw [hframe.cronJobs] at hjob
  unfold Database.liveScript
  rw [hframe.scripts]
  exact h.linked id job k hjob hk

theorem Numbered.account {db' : Database} (h : Numbered db) (hframe : AccountFrame db db') :
    Numbered db' := by
  have hget (k : ℕ) : (db'.scripts.get? k).map anonymous = (db.scripts.get? k).map anonymous := by
    rw [← Table.get?_map, ← Table.get?_map, hframe.scripts]
  constructor
  · intro id job k hjob hk
    unfold Database.liveJob at hjob
    rw [hframe.cronJobs] at hjob
    obtain ⟨script, hlive⟩ := h.linked id job k hjob hk
    obtain ⟨hscript, hkept⟩ := Database.liveScript_eq_some.mp hlive
    have hsame := hget k
    rw [hscript, Option.map_some] at hsame
    obtain ⟨script', hscript', hanonymous⟩ := Option.map_eq_some_iff.mp hsame
    have hdeleted : (anonymous script').isDeleted = (anonymous script).isDeleted := by
      rw [hanonymous]
    exact ⟨script', Database.liveScript_eq_some.mpr ⟨hscript', hdeleted.trans hkept⟩⟩
  · have hsame := hget 0
    rwa [h.scripts, Option.map_none, Option.map_eq_none_iff] at hsame

end

section Panel

variable (bcrypt : Bcrypt) (settings : Settings)

theorem serve_numbered {db : Database} (h : Numbered db) (r : Request) :
    Numbered (r.serve bcrypt settings db).1 := by
  cases r with
  | account r => exact h.account (serve_frame bcrypt settings db r)
  | edit op =>
    change Numbered (answer db (Prod.fst <$> op.commit db)).1
    cases hc : op.commit db with
    | error e => exact h
    | ok result => exact commit_numbered h hc
  | execute env sender jobId => exact h.run (execute_frame env sender jobId db)
  | fire env jobId => exact h.run (runScheduledJob_frame env jobId db)

/-- Whatever has been asked of the panel before, a page offers its reader exactly the buttons whose
requests, sent as the page stands, are turned away neither for who he is nor for what the page
shows. -/
theorem controls_match_routes {db : Database} (h : Numbered db) (rs : List Request) :
    Always (step bcrypt settings) (fun db ↦ ∀ sender user,
      loadUser db sender.userId = some user → ∀ nextRun filters control entry,
        IsShown sender nextRun filters db control →
          (offered user.role.name control ↔ Grants (press sender entry db control))) db rs := by
  have hall : Always (step bcrypt settings) Numbered db rs := by
    refine always ?_ h
    intro db r db' hdb hstep
    obtain rfl := Option.some.inj hstep
    exact serve_numbered bcrypt settings hdb r
  refine always_mono ?_ hall
  intro db hdb sender user hload nextRun filters control entry hshown
  exact offered_iff hload hdb hshown

open Scheduler.Eligibility in
open Sessions.Machine (sampleBcrypt sampleSettings) in
/-- The administrator is offered to run the job, and an operator would be, but no viewer. -/
theorem controls_match_routes_sample :
    ((listCronJobs ⟨1, 1, none⟩ (fun _ ↦ none) {} sample).toOption.map fun rows ↦
      rows.map fun job ↦ [Role.admin, .operator, .viewer].map fun role ↦
        offered role.name (.run job)) = some [[true, true, false]] ∧
    Always (step sampleBcrypt sampleSettings) (fun db ↦ ∀ sender user,
      loadUser db sender.userId = some user → ∀ nextRun filters control entry,
        IsShown sender nextRun filters db control →
          (offered user.role.name control ↔ Grants (press sender entry db control))) sample
      [.edit (.updateCronJobStatus ⟨1, 1, none⟩ 1 false)] := by
  constructor
  · decide
  · exact controls_match_routes sampleBcrypt sampleSettings ⟨sample_linked, rfl⟩ _

end Panel

end CronPanel.Frontend.Controls
