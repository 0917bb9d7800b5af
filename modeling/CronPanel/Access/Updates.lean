import CronPanel.Access.Columns

namespace CronPanel.Access.Updates

open Library.Strings Library.Tables Library.Fallible Data.Records Data.Repositories
open Data.Repositories.Database Cron.Validator Cron.Elements Cron.Grammar Schemas.Bodies
open Services.CronJobs Services.Columns Api.Errors Scheduler.Eligibility

/-- What a JSON body says about one of its optional fields. -/
inductive Sent (α : Type)
  | absent
  | null
  | value (a : α)

/-- The attribute of the parsed body, whose default is `None`. -/
def Sent.parsed {α : Type} : Sent α → Option α
  | .absent | .null => none
  | .value a => some a

/-- The link that a body asks for, which `null` removes. -/
def Sent.link {α : Type} (old : Option α) : Sent α → Option α
  | .absent => old
  | .null => none
  | .value a => some a

structure UpdateRequest where
  name : Sent Text := .absent
  description : Sent Text := .absent
  command : Sent Text := .absent
  scheduleExpression : Sent Text := .absent
  scriptId : Sent ℕ := .absent

/-- The body as `CronJobUpdate` reads it. -/
def UpdateRequest.body (request : UpdateRequest) : CronJobUpdate :=
  { name := request.name.parsed
    description := request.description.parsed
    command := request.command.parsed
    scheduleExpression := request.scheduleExpression.parsed
    scriptId := request.scriptId.parsed }

/-- A column has the checked value that was sent for it, and else the value it had. -/
def Stored {α : Type} (check : Text → Except FieldError Text) (wrap : Text → α) (sent : Sent Text)
    (old new : α) : Prop :=
  match sent with
  | .value t => ∃ checked, check t = .ok checked ∧ new = wrap checked
  | .absent | .null => new = old

/-- The row that a partial update leaves of a job. -/
structure Replaced (request : UpdateRequest) (job row : CronJob) : Prop where
  name : Stored CronJob.name id request.name job.name row.name
  description : Stored CronJob.description some request.description job.description row.description
  command : Stored CronJob.command id request.command job.command row.command
  scheduleExpression : Stored CronJob.scheduleExpression id request.scheduleExpression
    job.scheduleExpression row.scheduleExpression
  columns : request.scheduleExpression.parsed = none → derivedColumns row = derivedColumns job
  scriptId : row.scriptId = request.scriptId.link job.scriptId
  isActive : row.isActive = job.isActive
  isDeleted : row.isDeleted = job.isDeleted
  ownerId : row.ownerId = job.ownerId
  createdAt : row.createdAt = job.createdAt

/-- The fields of a row that a body can carry. -/
def editable (job : CronJob) : Text × Option Text × Text × Text × Option ℕ :=
  (job.name, job.description, job.command, job.scheduleExpression, job.scriptId)

structure PartialUpdate (request : UpdateRequest) (id : ℕ) (job : CronJob) (db db' : Database) :
    Prop where
  replaced : ∃ row, db'.cronJobs.get? id = some row ∧ Replaced request job row ∧
    (editable row = editable job →
      db'.cronJobHistory = db.cronJobHistory ∧ db'.auditLogs = db.auditLogs)
  others : ∀ j ≠ id, db'.cronJobs.get? j = db.cronJobs.get? j

section

variable {request : UpdateRequest} {checked body : CronJobUpdate} {job edited row : CronJob}
    {db db' : Database} {call : Call} {id : ℕ}

theorem stored_iff {α : Type} {check : Text → Except FieldError Text} {wrap : Text → α}
    {sent : Sent Text} {checked : Option Text} {old new : α}
    (h : optional check sent.parsed = .ok checked) :
    Stored check wrap sent old new ↔ new = (checked.map wrap).getD old := by
  cases sent with
  | value t =>
    obtain ⟨w, hw, rfl⟩ := map_eq_ok.mp h
    constructor
    · intro hstored
      obtain ⟨w', hw', rfl⟩ := hstored
      rw [Except.ok.inj (hw.symm.trans hw')]
      rfl
    · intro hnew
      exact ⟨w, hw, hnew⟩
  | absent | null =>
    obtain rfl := Except.ok.inj h
    exact Iff.rfl

theorem Edited.scheduleExpression (h : Edited body job edited) :
    edited.scheduleExpression = body.scheduleExpression.getD job.scheduleExpression := by
  rcases h with ⟨hsame, rfl⟩ | ⟨s, hs, -, rfl⟩
  · cases hbody : body.scheduleExpression with
    | none => rfl
    | some t => exact (hsame t hbody).symm
  · rw [hs]
    rfl

/-- A row that differs from the stored one differs in a field that the body carries. -/
theorem Edited.eq_of_editable (h : Edited body job edited) (heq : editable edited = editable job) :
    edited = job := by
  simp only [editable, Prod.mk.injEq] at heq
  obtain ⟨hname, hdescription, hcommand, hexpression, hscript⟩ := heq
  rcases h with ⟨-, rfl⟩ | ⟨s, -, hne, rfl⟩
  · obtain ⟨⟩ := job
    simp only [withBody] at hname hdescription hcommand hscript ⊢
    rw [hname, hdescription, hcommand, hscript]
  · exact absurd hexpression hne

theorem editCronJob_succeeds
    (hbody : ∀ t, body.scheduleExpression = some t → ∃ s : Schedule, t = s.text) (job : CronJob) :
    Succeeds (editCronJob body job) := by
  refine Succeeds.bind ?_ fun _ _ ↦ ⟨_, rfl⟩
  unfold setSchedule
  split
  · exact ⟨_, rfl⟩
  · rename_i t ht
    obtain ⟨s, rfl⟩ := hbody t ht
    split_ifs
    · exact ⟨_, rfl⟩
    · rw [applySchedule_text]
      exact ⟨_, rfl⟩

theorem validate_texts (h : body.validate = .ok checked) (t : Text)
    (ht : checked.scheduleExpression = some t) : ∃ s : Schedule, t = s.text := by
  obtain ⟨-, hschedule⟩ := CronJobUpdate.validate_ok h
  rcases hschedule with ⟨-, hnone⟩ | ⟨x, s, -, -, hs⟩
  · rw [hnone] at ht
    cases ht
  · exact ⟨s, Option.some.inj (ht.symm.trans hs)⟩

/-- An update of a live job by one who manages it is only refused for the script it names. -/
theorem updateCronJob_of_manage
    (hbody : ∀ t, body.scheduleExpression = some t → ∃ s : Schedule, t = s.text)
    (hlive : db.liveJob id = some job) (hmanage : canManage job call.actor) :
    (∃ k, body.scriptId = some k ∧ db.liveScript k = none ∧
      updateCronJob call id body db = .error .scriptReferenceNotFound) ∨
    Succeeds (updateCronJob call id body db) := by
  have hwrite : getJobForWrite db id call.actor = .ok job := by
    unfold getJobForWrite getJobForRead
    rw [hlive, Option.elim_some, ok_bind, if_pos hmanage]
  obtain ⟨⟨edited, changes⟩, hedit⟩ := editCronJob_succeeds hbody job
  have hsucceeds (href : validateScriptReference db body.scriptId = .ok ()) :
      Succeeds (updateCronJob call id body db) := by
    unfold updateCronJob
    rw [hwrite, ok_bind, href, ok_bind, hedit, ok_bind]
    dsimp only
    split_ifs
    · exact ⟨_, rfl⟩
    · exact ⟨_, rfl⟩
  cases hscript : body.scriptId with
  | none =>
    refine .inr (hsucceeds ?_)
    rw [hscript]
    rfl
  | some k =>
    cases hfound : db.liveScript k with
    | none =>
      refine .inl ⟨k, rfl, hfound, ?_⟩
      unfold updateCronJob
      rw [hwrite, ok_bind, hscript, validateScriptReference, hfound]
      rfl
    | some script =>
      refine .inr (hsucceeds ?_)
      rw [hscript, validateScriptReference, hfound]
      rfl

/-- The code leaves a link in place for a `null`, as it does where nothing is sent. -/
theorem link_iff {sent : Sent ℕ} {old : Option ℕ} :
    (sent.parsed.map some).getD old = sent.link old ↔ ¬(sent = .null ∧ old ≠ none) := by
  cases sent with
  | absent => simp [Sent.parsed, Sent.link]
  | null => simp [Sent.parsed, Sent.link]
  | value k => simp [Sent.parsed, Sent.link]

theorem Edited.replaced_iff (h : Edited checked job edited)
    (hvalid : request.body.validate = .ok checked) (t : Instant) :
    Replaced request job { edited with updatedAt := t } ↔
      ¬(request.scriptId = .null ∧ job.scriptId ≠ none) := by
  obtain ⟨hname, hdescription, hcommand, hschedule, hscript⟩ := CronJobUpdate.validate_fields hvalid
  have hlink : edited.scriptId = (request.scriptId.parsed.map some).getD job.scriptId := by
    rw [show request.scriptId.parsed = checked.scriptId from hscript.symm]
    rcases h with ⟨-, rfl⟩ | ⟨s, -, -, rfl⟩ <;> rfl
  rw [← link_iff, ← hlink]
  refine ⟨fun hreplaced ↦ hreplaced.scriptId, fun heq ↦ ?_⟩
  have hexpression := Edited.scheduleExpression h
  constructor
  case name =>
    rw [stored_iff hname, Option.map_id_fun, id]
    rcases h with ⟨-, rfl⟩ | ⟨s, -, -, rfl⟩ <;> rfl
  case description =>
    rw [stored_iff hdescription]
    rcases h with ⟨-, rfl⟩ | ⟨s, -, -, rfl⟩ <;> rfl
  case command =>
    rw [stored_iff hcommand, Option.map_id_fun, id]
    rcases h with ⟨-, rfl⟩ | ⟨s, -, -, rfl⟩ <;> rfl
  case scheduleExpression =>
    rw [stored_iff hschedule, Option.map_id_fun, id]
    exact hexpression
  case columns =>
    intro hnone
    have hchecked : checked.scheduleExpression = none := by
      rw [show request.body.scheduleExpression = none from hnone] at hschedule
      exact (Except.ok.inj hschedule).symm
    rcases h with ⟨-, rfl⟩ | ⟨s, hs, -, rfl⟩
    · rfl
    · rw [hchecked] at hs
      cases hs
  case scriptId => exact heq
  all_goals rcases h with ⟨-, rfl⟩ | ⟨s, -, -, rfl⟩ <;> rfl

end

/-- An update by one who manages the job is refused for the script it names, or is a partial
update exactly when it does not ask to unlink a script. -/
theorem update_partial_iff {db : Database} {sender : Sender} {call : Call} {id : ℕ} {job : CronJob}
    {request : UpdateRequest} {checked : CronJobUpdate}
    (hcall : requirePermission db sender .cronJobsUpdate = .ok call)
    (hlive : db.liveJob id = some job) (hmanage : canManage job call.actor)
    (hvalid : request.body.validate = .ok checked) :
    (∃ k, request.scriptId = .value k ∧ db.liveScript k = none ∧
      Api.CronJobs.updateCronJob sender id request.body db =
        .error (.detail 400 "SCRIPT_NOT_FOUND".toList "El script asignado no existe.".toList)) ∨
    ∃ db', Api.CronJobs.updateCronJob sender id request.body db = .ok db' ∧
      (PartialUpdate request id job db db' ↔
        ¬(request.scriptId = .null ∧ job.scriptId ≠ none)) := by
  have hroute : Api.CronJobs.updateCronJob sender id request.body db =
      (updateCronJob call id checked db).mapError ofCronJobError := by
    unfold Api.CronJobs.updateCronJob
    rw [hcall, ok_bind, hvalid]
    rfl
  have htexts := validate_texts hvalid
  rw [hroute]
  rcases updateCronJob_of_manage htexts hlive hmanage with ⟨k, hk, hfound, herror⟩ | ⟨db', hok⟩
  · refine .inl ⟨k, ?_, hfound, ?_⟩
    · rw [(CronJobUpdate.validate_ok hvalid).1] at hk
      cases hsent : request.scriptId with
      | value k' =>
        rw [UpdateRequest.body, hsent] at hk
        exact congrArg Sent.value (Option.some.inj hk)
      | absent | null =>
        rw [UpdateRequest.body, hsent] at hk
        cases hk
    · rw [herror]
      rfl
  · obtain ⟨job', edited, t, hlive', -, hedited, hset, hquiet⟩ := updateCronJob_row htexts hok
    obtain rfl := Option.some.inj (hlive.symm.trans hlive')
    have hget : db'.cronJobs.get? id = some { edited with updatedAt := t } := by
      rw [hset, Table.get?_set_self]
    refine .inr ⟨db', by rw [hok]; rfl, ?_⟩
    rw [← Edited.replaced_iff hedited hvalid t]
    constructor
    · intro hpartial
      obtain ⟨row, hrow, hreplaced, -⟩ := hpartial.replaced
      obtain rfl := Option.some.inj (hget.symm.trans hrow)
      exact hreplaced
    · intro hreplaced
      refine ⟨⟨_, hget, hreplaced, ?_⟩, ?_⟩
      · intro heq
        rw [hquiet (Edited.eq_of_editable hedited heq)]
        exact ⟨rfl, rfl⟩
      · intro j hj
        rw [hset, Table.get?_set_ne _ _ hj]

section Sample

def unlink : UpdateRequest := { scriptId := .null }

/-- The link of a job stays when the body asks for it to be removed. -/
theorem unlink_not_partial :
    requirePermission sample ⟨1, 5, none⟩ .cronJobsUpdate = .ok ⟨⟨1, sampleUser⟩, 5, none⟩ ∧
    sample.liveJob 1 = some sampleJob ∧ canManage sampleJob ⟨1, sampleUser⟩ ∧
    unlink.body.validate = .ok unlink.body ∧
    ∃ db', Api.CronJobs.updateCronJob ⟨1, 5, none⟩ 1 unlink.body sample = .ok db' ∧
      ¬PartialUpdate unlink 1 sampleJob sample db' := by
  refine ⟨rfl, rfl, rfl, rfl, sample, rfl, ?_⟩
  intro hpartial
  obtain ⟨row, hrow, hreplaced, -⟩ := hpartial.replaced
  obtain rfl : sampleJob = row := Option.some.inj hrow
  cases hreplaced.scriptId

theorem update_partial_iff_unlink :
    (∃ k, unlink.scriptId = .value k ∧ sample.liveScript k = none ∧
      Api.CronJobs.updateCronJob ⟨1, 5, none⟩ 1 unlink.body sample =
        .error (.detail 400 "SCRIPT_NOT_FOUND".toList "El script asignado no existe.".toList)) ∨
    ∃ db', Api.CronJobs.updateCronJob ⟨1, 5, none⟩ 1 unlink.body sample = .ok db' ∧
      (PartialUpdate unlink 1 sampleJob sample db' ↔
        ¬(unlink.scriptId = .null ∧ sampleJob.scriptId ≠ none)) := by
  have hcall : requirePermission sample ⟨1, 5, none⟩ .cronJobsUpdate =
      .ok ⟨⟨1, sampleUser⟩, 5, none⟩ := rfl
  have hvalid : unlink.body.validate = .ok unlink.body := rfl
  exact update_partial_iff hcall rfl rfl hvalid

end Sample

end CronPanel.Access.Updates
