import CronPanel.Access.Columns
import CronPanel.Frontend.JobDialog

namespace CronPanel.Frontend.Resaved

open Library.Strings Library.Tables Library.Fallible Library.Trimming Library.Run
open Core.Permissions Core.Security Data.Records Data.Repositories
open Cron.Validator Cron.Elements Cron.Grammar Cron.Normalized Schemas.Bodies
open Services.CronJobs Services.Scripts Services.Columns Api.Errors Api.CronJobs Api.Operations
open Api.Requests Api.Pages Access.Columns Access.Panel Access.References Access.Updates
open Access.Writes Controls JobDialog

/-- What the checks of the bodies let into a row. -/
structure Entered (job : CronJob) : Prop where
  name : strip job.name = job.name ∧ job.name ≠ [] ∧ job.name.length ≤ 200
  description : ∀ t, job.description = some t → t.length ≤ 2000
  command : strip job.command = job.command ∧ job.command ≠ [] ∧ job.command.length ≤ 2000
  schedule : ∃ s : Schedule, job.scheduleExpression = s.text ∧ s.text.length ≤ 100

structure Filled (db : Database) : Prop where
  numbered : Numbered db
  jobs : ∀ id job, db.cronJobs.get? id = some job → id ≠ 0 ∧ Entered job

/-- The dialog shows the texts of a row, and reads them back, as they are. -/
structure Unaltered (job : CronJobResponse) : Prop where
  name : 3 ≤ job.name.length ∧ '\n' ∉ job.name ∧ '\r' ∉ job.name ∧ ¬ AtEnd '\ufeff' job.name
  command : '\r' ∉ job.command ∧ ¬ AtEnd '\ufeff' job.command
  description : ∀ t, job.description = some t →
    (∀ c ∈ t, isBlank c) ∨ '\r' ∉ t ∧ ∀ c, AtEnd c t → isBlank c = false

/-- The row says what the dialog says, as the checks take it. -/
structure Says (row : CronJob) (form : JobForm) : Prop where
  name : row.name = strip (trim isBlank form.name)
  command : row.command = strip (trim isBlank form.command)
  schedule : parseCronExpression (some row.scheduleExpression) =
    parseCronExpression (some (trim isBlank form.schedule))
  description : row.description.getD [] = trim isBlank form.description
  script : row.scriptId.elim [] decimal = form.script

section Rows

variable {job edited : CronJob} {db db' : Database} {id : ℕ}

theorem entered_text {field message value t : Text} {least most : ℕ}
    (h : (checkLength field least most value >>= mustNotBeBlank field message) = .ok t) :
    strip t = t ∧ t ≠ [] ∧ t.length ≤ most := by
  obtain ⟨-, hmost, hne, rfl⟩ := checkText_ok_iff.mp h
  exact ⟨trim_trim, hne, (length_strip_le value).trans hmost⟩

theorem entered_description {value t : Option Text}
    (h : optional CronJob.description value = .ok t) : ∀ u, t = some u → u.length ≤ 2000 := by
  rintro u rfl
  rcases optional_ok h with ⟨-, hnone⟩ | ⟨v, w, -, hw, hcheck⟩
  · cases hnone
  · obtain rfl := Option.some.inj hw
    obtain ⟨rfl, -, hmost⟩ := checkLength_ok hcheck
    exact hmost

theorem entered_schedule {value t : Text} (h : CronJob.scheduleExpression value = .ok t) :
    ∃ s : Schedule, t = s.text ∧ s.text.length ≤ 100 := by
  obtain ⟨s, hparse, rfl⟩ := CronJob.scheduleExpression_ok h
  obtain ⟨v, hv, -⟩ := bind_eq_ok.mp h
  obtain ⟨-, -, hmost⟩ := checkLength_ok hv
  exact ⟨s, rfl, (length_normalized_le hparse).trans hmost⟩

theorem Entered.congr (h : Entered job) (hrow : editable edited = editable job) :
    Entered edited := by
  simp only [editable, Prod.mk.injEq] at hrow
  obtain ⟨hname, hdescription, hcommand, hexpression, -⟩ := hrow
  exact ⟨hname ▸ h.name, hdescription ▸ h.description, hcommand ▸ h.command,
    hexpression ▸ h.schedule⟩

theorem entered_of_create {sender : Sender} {body : CronJobCreate}
    (h : Api.CronJobs.createCronJob sender body db = .ok (id, db')) :
    ∃ row, id ≠ 0 ∧ Entered row ∧ db'.cronJobs = db.cronJobs.set id row := by
  obtain ⟨call, -, h⟩ := bind_eq_ok.mp h
  obtain ⟨checked, hc, h⟩ := bind_eq_ok.mp h
  obtain ⟨hname, hdescription, hcommand, hschedule, -⟩ :=
    CronJobCreate.validate_iff.mp (mapError_eq_ok.mp hc)
  obtain ⟨s, hs, hlength⟩ := entered_schedule hschedule
  obtain ⟨⟨⟩, -, h⟩ := bind_eq_ok.mp (mapError_eq_ok.mp h)
  rw [hs, applySchedule_text, ok_bind] at h
  cases h
  refine ⟨_, Nat.succ_ne_zero _, ?_, rfl⟩
  exact ⟨entered_text hname, entered_description hdescription, entered_text hcommand,
    ⟨s, rfl, hlength⟩⟩

theorem getD_of_optional {check : Text → Except FieldError Text} {value checked : Option Text}
    {old : Text} (h : optional check value = .ok checked) {P : Text → Prop} (hold : P old)
    (hnew : ∀ v t, check v = .ok t → P t) : P (checked.getD old) := by
  rcases optional_ok h with ⟨-, rfl⟩ | ⟨v, t, -, rfl, hcheck⟩
  · exact hold
  · exact hnew v t hcheck

theorem Entered.of_edited {body checked : CronJobUpdate} (hjob : Entered job)
    (hvalid : body.validate = .ok checked) (h : Edited checked job edited) : Entered edited := by
  have hexpression := Edited.scheduleExpression h
  obtain ⟨hname, hdescription, hcommand, hschedule, -⟩ := CronJobUpdate.validate_iff.mp hvalid
  have hrow : edited.name = checked.name.getD job.name ∧
      edited.description = (checked.description.map some).getD job.description ∧
      edited.command = checked.command.getD job.command := by
    rcases h with ⟨-, rfl⟩ | ⟨s, -, -, rfl⟩ <;> exact ⟨rfl, rfl, rfl⟩
  constructor
  · rw [hrow.1]
    exact getD_of_optional hname hjob.name fun v t ht ↦ entered_text ht
  · rw [hrow.2.1]
    cases hsent : checked.description with
    | none => exact hjob.description
    | some t => exact fun u hu ↦ entered_description hdescription u (hsent.trans hu)
  · rw [hrow.2.2]
    exact getD_of_optional hcommand hjob.command fun v t ht ↦ entered_text ht
  · rw [hexpression]
    exact getD_of_optional hschedule hjob.schedule fun v t ht ↦ entered_schedule ht

theorem Filled.set {stored : CronJob} (h : Filled db) (hnumbered : Numbered db')
    (hset : db'.cronJobs = db.cronJobs.set id stored) (hid : id ≠ 0) (hstored : Entered stored) :
    Filled db' := by
  refine ⟨hnumbered, ?_⟩
  intro j job hjob
  rw [hset] at hjob
  exact Table.forall_set (P := fun j job ↦ j ≠ 0 ∧ Entered job) ⟨hid, hstored⟩
    (fun j b _ hb ↦ h.jobs j b hb) j job hjob

theorem Filled.of_eq (h : Filled db) (hnumbered : Numbered db')
    (heq : db'.cronJobs = db.cronJobs) : Filled db' := ⟨hnumbered, heq ▸ h.jobs⟩

theorem updateCronJobStatus_keeps {call : Call} {isActive : Bool}
    (h : Services.CronJobs.updateCronJobStatus call id isActive db = .ok db') :
    ∃ job stored, db.cronJobs.get? id = some job ∧ editable stored = editable job ∧
      db'.cronJobs = db.cronJobs.set id stored := by
  obtain ⟨job, hjob, h⟩ := bind_eq_ok.mp h
  have hget := (Database.liveJob_eq_some.mp (getJobForWrite_ok hjob).1).1
  split_ifs at h
  · cases h
    exact ⟨job, job, hget, rfl, (Table.set_get? hget).symm⟩
  all_goals
    cases h
    refine ⟨job, _, hget, ?_, rfl⟩
    rfl

theorem deleteCronJob_keeps {call : Call}
    (h : Services.CronJobs.deleteCronJob call id db = .ok db') :
    ∃ job stored, db.cronJobs.get? id = some job ∧ editable stored = editable job ∧
      db'.cronJobs = db.cronJobs.set id stored := by
  obtain ⟨job, hjob, h⟩ := bind_eq_ok.mp h
  have hget := (Database.liveJob_eq_some.mp (getJobForWrite_ok hjob).1).1
  cases h
  refine ⟨job, _, hget, ?_, rfl⟩
  rfl

theorem commit_filled (h : Filled db) {op : Operation} {n : Notification}
    (hcommit : op.commit db = .ok (db', n)) : Filled db' := by
  have hnumbered := commit_numbered h.numbered hcommit
  obtain ⟨call, hperformed⟩ := Api.Frames.commit_ok hcommit
  cases op with
  | createCronJob sender body =>
    obtain ⟨⟨id, db₁⟩, hc, hsame⟩ := bind_eq_ok.mp hcommit
    cases hsame
    obtain ⟨row, hid, hrow, hset⟩ := entered_of_create hc
    exact h.set hnumbered hset hid hrow
  | updateCronJob sender id body =>
    obtain ⟨db₁, hc, hsame⟩ := bind_eq_ok.mp hcommit
    cases hsame
    obtain ⟨checked, job, edited, t, hvalid, hlive, hedited, hset⟩ := updateCronJob_stores hc
    obtain ⟨hid, hjob⟩ := h.jobs id job (Database.liveJob_eq_some.mp hlive).1
    exact h.set hnumbered hset hid ((hjob.of_edited hvalid hedited).congr rfl)
  | updateCronJobStatus sender id isActive =>
    obtain ⟨job, stored, hget, hsame, hset⟩ := updateCronJobStatus_keeps hperformed.2
    exact h.set hnumbered hset (h.jobs id job hget).1 ((h.jobs id job hget).2.congr hsame)
  | deleteCronJob sender id =>
    obtain ⟨job, stored, hget, hsame, hset⟩ := deleteCronJob_keeps hperformed.2
    exact h.set hnumbered hset (h.jobs id job hget).1 ((h.jobs id job hget).2.congr hsame)
  | createScript sender host body =>
    obtain ⟨-, checked, id, hc⟩ := hperformed
    exact h.of_eq hnumbered (createScript_live hc).1
  | updateScript sender host id body =>
    obtain ⟨-, checked, hc⟩ := hperformed
    exact h.of_eq hnumbered (updateScript_live hc).1
  | deleteScript sender id => exact h.of_eq hnumbered (deleteScript_ok hperformed.2).1

end Rows

section Saves

variable {db db' : Database} {sender : Sender} {user : User} {job : CronJobResponse} {row : CronJob}

/-- The fields of a row after a body has been applied to it. -/
def overlay (body : CronJobUpdate) (row : CronJob) : Text × Option Text × Text × Text × Option ℕ :=
  (body.name.getD row.name, (body.description.map some).getD row.description,
    body.command.getD row.command, body.scheduleExpression.getD row.scheduleExpression,
    (body.scriptId.map some).getD row.scriptId)

theorem editable_of_edited {body : CronJobUpdate} {edited : CronJob} (h : Edited body row edited) :
    editable edited = overlay body row := by
  have hexpression := Edited.scheduleExpression h
  rcases h with ⟨-, rfl⟩ | ⟨s, -, -, rfl⟩
  · simp only [editable, overlay, withBody, ← hexpression]
  · simp only [editable, overlay, withBody, withSchedule, ← hexpression]

/-- An update stores nothing when its checked body says what the row says. -/
theorem unchanged_iff (hload : loadUser db sender.userId = some user)
    (hupdate : hasPermission user.role .cronJobsUpdate)
    (hrow : Row db ⟨sender.userId, user⟩ job row) {body : CronJobUpdate}
    (hscript : ∀ k, body.scriptId = some k → db.liveScript k ≠ none) :
    Api.CronJobs.updateCronJob sender job.id body db = .ok db ↔
      ∃ checked, body.validate = .ok checked ∧ overlay checked row = editable row := by
  constructor
  · intro h
    obtain ⟨checked, row', edited, t, hvalid, hlive, hedited, hset⟩ := updateCronJob_stores h
    obtain rfl := Option.some.inj (hrow.live.symm.trans hlive)
    refine ⟨checked, hvalid, ?_⟩
    have hget := (Database.liveJob_eq_some.mp hrow.live).1
    rw [hset, Table.get?_set_self] at hget
    rw [← editable_of_edited hedited, ← Option.some.inj hget]
    rfl
  · rintro ⟨checked, hvalid, hsame⟩
    have htexts := validate_texts hvalid
    let call : Call := ⟨⟨sender.userId, user⟩, sender.now, sender.ipAddress⟩
    have hcall : requirePermission db sender .cronJobsUpdate = .ok call := by
      rw [requirePermission, hload]
      exact if_pos hupdate
    have hchecked : checked.scriptId = body.scriptId := (CronJobUpdate.validate_iff.mp hvalid).2.2.2.2
    rw [Api.CronJobs.updateCronJob, hcall, ok_bind, hvalid]
    change (Services.CronJobs.updateCronJob call job.id checked db).mapError ofCronJobError = .ok db
    have hmanage : canManage row call.actor := hrow.managed
    rcases updateCronJob_of_manage htexts hrow.live hmanage with
      ⟨k, hk, hmissing, -⟩ | ⟨db', hdb'⟩
    · exact absurd hmissing (hscript k (hchecked ▸ hk))
    · obtain ⟨row', edited, t, hlive, -, hedited, -, hstays⟩ := updateCronJob_row htexts hdb'
      obtain rfl := Option.some.inj (hrow.live.symm.trans hlive)
      have heq := Edited.eq_of_editable hedited ((editable_of_edited hedited).trans hsame)
      rw [hdb', hstays heq]
      rfl

theorem trim_blank_iff {t : Text} (h : strip t = t) :
    trim isBlank t = t ↔ ¬ AtEnd '\ufeff' t := by
  rw [trim_eq_self_iff]
  constructor
  · intro hends hmark
    exact absurd (hends _ hmark) (by decide)
  · intro hmark c hc
    by_contra hblank
    rcases isSpace_of_isBlank (Bool.not_eq_false _ ▸ hblank) with hspace | rfl
    · exact absurd hspace (by rw [trim_eq_self_iff.mp h c hc]; exact Bool.false_ne_true)
    · exact hmark hc

/-- A text that an element may have shortened comes back only when neither the element nor the
trim has changed it. -/
theorem text_comes_back_iff {field message v t : Text} {least most : ℕ} (hstrip : strip t = t)
    (hne : t ≠ []) (hmost : t.length ≤ most) (hlength : v.length ≤ t.length) :
    (checkLength field least most (trim isBlank v) >>= mustNotBeBlank field message) = .ok t ↔
      least ≤ t.length ∧ v = t ∧ ¬ AtEnd '\ufeff' t := by
  rw [checkText_ok_iff, ← trim_blank_iff hstrip]
  constructor
  · rintro ⟨hleast, -, -, hback⟩
    obtain ⟨htrim, rfl⟩ := eq_of_trim_trim hback.symm hlength
    exact ⟨htrim ▸ hleast, rfl, htrim⟩
  · rintro ⟨hleast, rfl, htrim⟩
    rw [htrim, hstrip]
    exact ⟨hleast, hmost, hne, rfl⟩

theorem name_comes_back_iff (h : Entered row) :
    Schemas.Bodies.CronJob.name (trim isBlank (inputValue row.name)) = .ok row.name ↔
      3 ≤ row.name.length ∧ '\n' ∉ row.name ∧ '\r' ∉ row.name ∧ ¬ AtEnd '\ufeff' row.name := by
  obtain ⟨hstrip, hne, hmost⟩ := h.name
  rw [Schemas.Bodies.CronJob.name,
    text_comes_back_iff hstrip hne hmost (inputValue_sublist row.name).length_le,
    inputValue_eq_self_iff, and_assoc]

theorem command_comes_back_iff (h : Entered row) :
    Schemas.Bodies.CronJob.command (trim isBlank (textareaValue row.command)) = .ok row.command ↔
      '\r' ∉ row.command ∧ ¬ AtEnd '\ufeff' row.command := by
  obtain ⟨hstrip, hne, hmost⟩ := h.command
  rw [Schemas.Bodies.CronJob.command,
    text_comes_back_iff hstrip hne hmost (length_textareaValue_le row.command),
    textareaValue_eq_self_iff]
  exact and_iff_right (List.length_pos_iff.mpr hne)

theorem isBlank_of_mem_joined {f : Field} {es : List (Element f)} {c : Char} (hc : c ∈ joined es) :
    isBlank c = false := by
  have hspace := isSpace_of_mem_joined hc
  by_contra hblank
  rcases isSpace_of_isBlank (Bool.not_eq_false _ ▸ hblank) with h | rfl
  · rw [hspace] at h
    cases h
  · rcases mem_intercalate hc with h | ⟨t, ht, hc⟩
    · exact absurd h (by decide)
    · obtain ⟨e, -, rfl⟩ := List.mem_map.mp ht
      exact absurd (plain_of_mem_text e hc) (by decide)

theorem fieldText_ne_nil (s : Schedule) (f : Field) : s.fieldText f ≠ [] := by
  obtain ⟨e, he, -⟩ := s.nonempty f
  exact joined_ne_nil (List.ne_nil_of_mem he)

theorem schedule_comes_back (h : Entered row) :
    Schemas.Bodies.CronJob.scheduleExpression (trim isBlank (inputValue row.scheduleExpression)) =
      .ok row.scheduleExpression := by
  obtain ⟨s, hs, hlength⟩ := h.schedule
  have hplain {c : Char} (hc : c ∈ s.text) : c = ' ' ∨ isBlank c = false := by
    rcases mem_intercalate hc with rfl | ⟨t, ht, hc⟩
    · exact .inl rfl
    · obtain ⟨f, -, rfl⟩ := List.mem_map.mp ht
      exact .inr (isBlank_of_mem_joined hc)
  have hfields : ∀ t ∈ s.fields, t ≠ [] := by
    intro t ht
    obtain ⟨f, -, rfl⟩ := List.mem_map.mp ht
    exact fieldText_ne_nil s f
  have hends {c : Char} (hc : AtEnd c s.text) : isBlank c = false := by
    obtain ⟨t, ht, hc⟩ := mem_of_atEnd_intercalate hfields hc
    obtain ⟨f, -, rfl⟩ := List.mem_map.mp ht
    exact isBlank_of_mem_joined hc
  have hinput : inputValue s.text = s.text := by
    refine inputValue_eq_self_iff.mpr ⟨?_, ?_⟩
    · intro hc
      exact absurd (hplain hc) (by decide)
    · intro hc
      exact absurd (hplain hc) (by decide)
  rw [hs, hinput, trim_eq_self_iff.mpr fun c ↦ hends]
  exact CronJob.scheduleExpression_text hlength

/-- What the dialog sends of a description. -/
def sentDescription (t : Text) : Option Text :=
  let description := trim isBlank (textareaValue t)
  if description = [] then none else some description

theorem description_comes_back_iff (h : Entered row) :
    (∃ checked, optional Schemas.Bodies.CronJob.description (sentDescription (row.description.getD [])) =
        .ok checked ∧ (checked.map some).getD row.description = row.description) ↔
      ∀ t, row.description = some t →
        (∀ c ∈ t, isBlank c) ∨ '\r' ∉ t ∧ ∀ c, AtEnd c t → isBlank c = false := by
  cases hstored : row.description with
  | none =>
    refine iff_of_true ⟨none, rfl, rfl⟩ ?_
    intro t ht
    cases ht
  | some t =>
    have hmost := h.description t hstored
    have hread : (trim isBlank (textareaValue t)).length ≤ t.length :=
      (length_trim_le isBlank _).trans (length_textareaValue_le t)
    have hall : trim isBlank (textareaValue t) = [] ↔ ∀ c ∈ t, isBlank c :=
      trim_eq_nil_iff.trans blank_textareaValue_iff
    have hsame : trim isBlank (textareaValue t) = t ↔
        '\r' ∉ t ∧ ∀ c, AtEnd c t → isBlank c = false := by
      rw [← textareaValue_eq_self_iff, ← trim_eq_self_iff]
      constructor
      · intro hback
        have heq := eq_of_trim hback (length_textareaValue_le t)
        rw [heq] at hback
        exact ⟨heq, hback⟩
      · rintro ⟨hvalue, htrim⟩
        rw [hvalue, htrim]
    simp only [Option.getD_some, sentDescription, Option.some.injEq, forall_eq']
    rw [← hall, ← hsame]
    split_ifs with hnil
    · exact iff_of_true ⟨none, rfl, rfl⟩ (.inl hnil)
    · rw [or_iff_right hnil]
      have hcheck : Schemas.Bodies.CronJob.description (trim isBlank (textareaValue t)) =
          .ok (trim isBlank (textareaValue t)) := by
        rw [Schemas.Bodies.CronJob.description, checkLength, if_neg (Nat.not_lt_zero _),
          if_neg (Nat.not_lt.mpr (hread.trans hmost))]
      constructor
      · rintro ⟨checked, hchecked, hback⟩
        obtain ⟨v, hv, rfl⟩ := map_eq_ok.mp hchecked
        obtain rfl := Except.ok.inj (hcheck.symm.trans hv)
        exact Option.some.inj hback
      · intro hback
        refine ⟨some (trim isBlank (textareaValue t)), ?_, congrArg some hback⟩
        exact map_eq_ok.mpr ⟨_, hcheck, rfl⟩

theorem sentScript (scripts : List ScriptResponse) (id : Option ℕ) :
    (if selectValue (populateScriptSelect scripts id) = [] then none
      else some (Nat.ofDigitChars 10 (selectValue (populateScriptSelect scripts id)) 0)) = id := by
  rw [selectValue_populate]
  cases id with
  | none => rfl
  | some id =>
    rw [Option.elim_some, if_neg (decimal_ne_nil id)]
    exact congrArg some Nat.ofDigitChars_ten_toDigits

theorem optional_same_iff {check : Text → Except FieldError Text} {value old : Text}
    {checked : Option Text} (h : optional check (some value) = .ok checked) :
    checked.getD old = old ↔ check value = .ok old := by
  obtain ⟨t, ht, rfl⟩ := map_eq_ok.mp h
  rw [Option.getD_some]
  constructor
  · rintro rfl
    exact ht
  · intro hold
    exact Except.ok.inj (ht.symm.trans hold)

theorem submit_editing {form : JobForm} {id : ℕ} (hid : id ≠ 0) (h : form.editingJobId = some id) :
    submit sender form db =
      Api.CronJobs.updateCronJob sender id (collectJobForm form).toUpdate db := by
  have hset : form.editingJobId.filter (· ≠ 0) = some id := by
    rw [h]
    exact if_pos (decide_eq_true hid)
  rw [submit, hset]

theorem submit_opened_iff (hload : loadUser db sender.userId = some user)
    (hupdate : hasPermission user.role .cronJobsUpdate) (hfilled : Filled db)
    (hrow : Row db ⟨sender.userId, user⟩ job row) (scripts : List ScriptResponse) :
    submit sender (openJobModal scripts (some job)) db = .ok db ↔ Unaltered job := by
  obtain ⟨hid, hentered⟩ := hfilled.jobs job.id row (Database.liveJob_eq_some.mp hrow.live).1
  let body := (collectJobForm (openJobModal scripts (some job))).toUpdate
  have hscriptId : body.scriptId = row.scriptId := (sentScript scripts job.scriptId).trans hrow.scriptId
  have hlinked : ∀ k, body.scriptId = some k → db.liveScript k ≠ none := by
    intro k hk
    obtain ⟨script, hlive⟩ := hfilled.numbered.linked job.id row k hrow.live (hscriptId.symm.trans hk)
    rw [hlive]
    exact Option.some_ne_none script
  have hname : body.name = some (trim isBlank (inputValue row.name)) := by rw [← hrow.name]; rfl
  have hcommand : body.command = some (trim isBlank (textareaValue row.command)) := by
    rw [← hrow.command]
    rfl
  have hdescription : body.description = sentDescription (row.description.getD []) := by
    rw [← hrow.description]
    rfl
  have hschedule :
      body.scheduleExpression = some (trim isBlank (inputValue row.scheduleExpression)) := by
    rw [← hrow.scheduleExpression]
    rfl
  have hunaltered : Unaltered job ↔
      Schemas.Bodies.CronJob.name (trim isBlank (inputValue row.name)) = .ok row.name ∧
      Schemas.Bodies.CronJob.command (trim isBlank (textareaValue row.command)) = .ok row.command ∧
      ∃ checked, optional Schemas.Bodies.CronJob.description
        (sentDescription (row.description.getD [])) = .ok checked ∧
          (checked.map some).getD row.description = row.description := by
    rw [name_comes_back_iff hentered, command_comes_back_iff hentered,
      description_comes_back_iff hentered, ← hrow.name, ← hrow.command, ← hrow.description]
    exact ⟨fun h ↦ ⟨h.name, h.command, h.description⟩, fun h ↦ ⟨h.1, h.2.1, h.2.2⟩⟩
  rw [submit_editing hid rfl, unchanged_iff hload hupdate hrow hlinked, hunaltered]
  constructor
  · rintro ⟨checked, hvalid, hsame⟩
    obtain ⟨hcheckedName, hcheckedDescription, hcheckedCommand, -, -⟩ :=
      CronJobUpdate.validate_iff.mp hvalid
    rw [hname] at hcheckedName
    rw [hdescription] at hcheckedDescription
    rw [hcommand] at hcheckedCommand
    simp only [overlay, editable, Prod.mk.injEq] at hsame
    obtain ⟨hsameName, hsameDescription, hsameCommand, -, -⟩ := hsame
    exact ⟨(optional_same_iff hcheckedName).mp hsameName,
      (optional_same_iff hcheckedCommand).mp hsameCommand,
      checked.description, hcheckedDescription, hsameDescription⟩
  · rintro ⟨hbackName, hbackCommand, description, hchecked, hback⟩
    refine ⟨⟨some row.name, description, some row.command, some row.scheduleExpression, row.scriptId⟩,
      CronJobUpdate.validate_iff.mpr ⟨?_, ?_, ?_, ?_, hscriptId.symm⟩, ?_⟩
    · rw [hname]
      exact map_eq_ok.mpr ⟨row.name, hbackName, rfl⟩
    · rw [hdescription]
      exact hchecked
    · rw [hcommand]
      exact map_eq_ok.mpr ⟨row.command, hbackCommand, rfl⟩
    · rw [hschedule]
      exact map_eq_ok.mpr ⟨row.scheduleExpression, schedule_comes_back hentered, rfl⟩
    · have hscript : (row.scriptId.map some).getD row.scriptId = row.scriptId := by
        cases row.scriptId with
        | none => rfl
        | some k => rfl
      simp only [overlay, editable, Option.getD_some, hback, hscript]

theorem sent_description_iff {u : Text} {old checked : Option Text}
    (h : optional Schemas.Bodies.CronJob.description (if u = [] then none else some u) =
      .ok checked) :
    ((checked.map some).getD old).getD [] = u ↔ (u = [] → old.getD [] = []) := by
  split_ifs at h with hnil
  · cases h
    rw [hnil]
    exact ⟨fun hold _ ↦ hold, fun hold ↦ hold rfl⟩
  · obtain ⟨t, ht, rfl⟩ := map_eq_ok.mp h
    obtain ⟨rfl, -, -⟩ := checkLength_ok ht
    exact iff_of_true rfl fun hu ↦ absurd hu hnil

theorem sent_script_iff {value : Text} {old : Option ℕ}
    (hvalue : value = [] ∨ ∃ k, value = decimal k) :
    (((if value = [] then none else some (Nat.ofDigitChars 10 value 0)).map some).getD old).elim []
      decimal = value ↔ (value = [] → old = none) := by
  rcases hvalue with rfl | ⟨k, rfl⟩
  · rw [if_pos rfl]
    cases old with
    | none => exact iff_of_true rfl fun _ ↦ rfl
    | some k =>
      refine iff_of_false (decimal_ne_nil k) ?_
      intro h
      cases h rfl
  · rw [if_neg (decimal_ne_nil k)]
    refine iff_of_true ?_ fun h ↦ absurd h (decimal_ne_nil k)
    exact congrArg decimal Nat.ofDigitChars_ten_toDigits

theorem value_of_choice {scripts : List ScriptResponse} {selectedId : Option ℕ} {choice : Choice}
    (h : choice ∈ populateScriptSelect scripts selectedId) :
    choice.value = [] ∨ ∃ k, choice.value = decimal k := by
  cases hselected : choice.selected with
  | true =>
    obtain ⟨id, -, hvalue⟩ := selected_populate h hselected
    exact .inr ⟨id, hvalue⟩
  | false =>
    simp only [populateScriptSelect, List.cons_append, List.mem_cons, List.mem_append,
      List.mem_map] at h
    rcases h with rfl | ⟨script, -, rfl⟩ | hlegacy
    · exact .inl rfl
    · exact .inr ⟨script.id, rfl⟩
    · split_ifs at hlegacy
      · obtain rfl := List.mem_singleton.mp hlegacy
        cases hselected
      · cases hlegacy

/-- Two edits of the dialog do not reach the row: a description is not cleared, a script is not
taken away. -/
theorem submit_says_iff {id : ℕ} (hid : id ≠ 0) (hlive : db.liveJob id = some row) {form : JobForm}
    (hform : form.editingJobId = some id)
    (hscript : form.script = [] ∨ ∃ k, form.script = decimal k)
    (h : submit sender form db = .ok db') :
    ∃ row', db'.liveJob id = some row' ∧
      (Says row' form ↔
        (trim isBlank form.description = [] → row.description.getD [] = []) ∧
          (form.script = [] → row.scriptId = none)) := by
  rw [submit_editing hid hform] at h
  obtain ⟨checked, row₀, edited, t, hvalid, hlive₀, hedited, hset⟩ := updateCronJob_stores h
  obtain rfl := Option.some.inj (hlive.symm.trans hlive₀)
  have hfields := editable_of_edited hedited
  obtain ⟨hname, hdescription, hcommand, hschedule, hscriptId⟩ :=
    CronJobUpdate.validate_iff.mp hvalid
  obtain ⟨name, hcheckedName, hnameOk⟩ := map_eq_ok.mp hname
  obtain ⟨command, hcheckedCommand, hcommandOk⟩ := map_eq_ok.mp hcommand
  obtain ⟨expression, hcheckedSchedule, hscheduleOk⟩ := map_eq_ok.mp hschedule
  obtain ⟨s, hparse, rfl⟩ := CronJob.scheduleExpression_ok hcheckedSchedule
  simp only [editable, overlay, Prod.mk.injEq] at hfields
  obtain ⟨hrowName, hrowDescription, hrowCommand, hrowSchedule, hrowScript⟩ := hfields
  rw [← hnameOk, Option.getD_some] at hrowName
  rw [← hcommandOk, Option.getD_some] at hrowCommand
  rw [← hscheduleOk, Option.getD_some] at hrowSchedule
  have hkept : edited.isDeleted = row.isDeleted := by
    rcases hedited with ⟨-, rfl⟩ | ⟨s', -, -, rfl⟩
    · rfl
    · rfl
  refine ⟨{ edited with updatedAt := t }, Database.liveJob_eq_some.mpr ⟨?_, ?_⟩, ?_⟩
  · rw [hset, Table.get?_set_self]
  · exact hkept.trans (Database.liveJob_eq_some.mp hlive).2
  · have hdescriptionIff := @sent_description_iff _ row.description _ hdescription
    have hscriptIff := @sent_script_iff _ row.scriptId hscript
    rw [← hrowDescription] at hdescriptionIff
    change ((((collectJobForm form).toUpdate.scriptId.map some).getD row.scriptId).elim [] decimal =
      form.script ↔ _) at hscriptIff
    rw [← hscriptId, ← hrowScript] at hscriptIff
    rw [← hdescriptionIff, ← hscriptIff]
    constructor
    · intro htells
      exact ⟨htells.description, htells.script⟩
    · intro htells
      obtain ⟨-, -, -, hstripName⟩ := checkText_ok_iff.mp hcheckedName
      obtain ⟨-, -, -, hstripCommand⟩ := checkText_ok_iff.mp hcheckedCommand
      refine ⟨hrowName.trans hstripName, hrowCommand.trans hstripCommand, ?_, htells.1, htells.2⟩
      change parseCronExpression (some edited.scheduleExpression) = _
      rw [hrowSchedule, parse_text]
      exact hparse.symm

end Saves

section Panel

variable (bcrypt : Bcrypt) (settings : Settings)

theorem serve_filled {db : Database} (h : Filled db) (r : Request) :
    Filled (r.serve bcrypt settings db).1 := by
  have hnumbered := serve_numbered bcrypt settings h.numbered r
  cases r with
  | account r => exact h.of_eq hnumbered (serve_frame bcrypt settings db r).cronJobs
  | edit op =>
    change Filled (answer db (Prod.fst <$> op.commit db)).1
    cases hc : op.commit db with
    | error e => exact h
    | ok result => exact commit_filled h hc
  | execute env sender jobId => exact h.of_eq hnumbered (execute_frame env sender jobId db).cronJobs
  | fire env jobId => exact h.of_eq hnumbered (runScheduledJob_frame env jobId db).cronJobs

theorem always_filled {db : Database} (h : Filled db) (rs : List Request) :
    Always (step bcrypt settings) Filled db rs := by
  refine always ?_ h
  intro db r db' hdb hstep
  obtain rfl := Option.some.inj hstep
  exact serve_filled bcrypt settings hdb r

/-- Whatever has been asked of the panel before, saving the dialog of a job as it opens is taken
and changes nothing exactly for the jobs whose texts the dialog does not alter. -/
theorem untouched_save_iff {db : Database} (h : Filled db) (rs : List Request) :
    Always (step bcrypt settings) (fun db ↦ ∀ sender user,
      loadUser db sender.userId = some user → hasPermission user.role .cronJobsUpdate →
        ∀ nextRun filters jobs, listCronJobs sender nextRun filters db = .ok jobs →
          ∀ job ∈ jobs, ∀ scripts,
            (submit sender (openJobModal scripts (some job)) db = .ok db ↔ Unaltered job)) db rs := by
  refine always_mono ?_ (always_filled bcrypt settings h rs)
  intro db hdb sender user hload hupdate nextRun filters jobs hjobs job hmem scripts
  obtain ⟨row, hrow⟩ := row_of_shown hload hjobs hmem
  exact submit_opened_iff hload hupdate hdb hrow scripts

/-- A saved dialog stores what it says, unless a description has been cleared in it or a script
taken away: then the row keeps them. -/
theorem saved_says_iff {db : Database} (h : Filled db) (rs : List Request) :
    Always (step bcrypt settings) (fun db ↦ ∀ id row, db.liveJob id = some row →
      ∀ scripts form, form.editingJobId = some id →
        (∃ choice ∈ populateScriptSelect scripts row.scriptId, form.script = choice.value) →
          ∀ sender db', submit sender form db = .ok db' →
            ∃ row', db'.liveJob id = some row' ∧
              (Says row' form ↔
                (trim isBlank form.description = [] → row.description.getD [] = []) ∧
                  (form.script = [] → row.scriptId = none))) db rs := by
  refine always_mono ?_ (always_filled bcrypt settings h rs)
  rintro db hdb id row hlive scripts form hform ⟨choice, hmem, hchoice⟩ sender db' hsave
  have hid := (hdb.jobs id row (Database.liveJob_eq_some.mp hlive).1).1
  exact submit_says_iff hid hlive hform (hchoice ▸ value_of_choice hmem) hsave

end Panel

section Sample

open Scheduler.Eligibility
open Sessions.Machine (sampleBcrypt sampleSettings)

theorem sample_filled : Filled sample := by
  refine ⟨⟨sample_linked, rfl⟩, ?_⟩
  intro id job hjob
  have hsample : (id, job) = (1, sampleJob) := List.mem_singleton.mp (Table.mem_rows.mpr hjob)
  cases hsample
  refine ⟨Nat.one_ne_zero, by decide, by decide, by decide, ?_⟩
  exact @entered_schedule sampleJob.scheduleExpression sampleJob.scheduleExpression (by decide)

def administrator : Sender := ⟨1, 1, none⟩

/-- A name of three characters, of which the row keeps two. -/
def shorten : Request := .edit (.updateCronJob administrator 1 { name := some "ab ".toList })

def shortened : Database := (shorten.serve sampleBcrypt sampleSettings sample).1

def unlinked : JobForm :=
  { editingJobId := some 1
    name := "nightly".toList
    command := "backup".toList
    schedule := "0 9 * * *".toList
    description := []
    script := [] }

/-- The job of the sample can be saved as it is, but not once it has the short name. -/
theorem untouched_save_iff_shortened :
    ([sample, shortened].map fun db ↦
      (listCronJobs administrator (fun _ ↦ none) {} db).toOption.map fun jobs ↦ jobs.map fun job ↦
        (submit administrator (openJobModal [] (some job)) db).toOption.isSome) =
      [some [true], some [false]] ∧
    Always (step sampleBcrypt sampleSettings) (fun db ↦ ∀ sender user,
      loadUser db sender.userId = some user → hasPermission user.role .cronJobsUpdate →
        ∀ nextRun filters jobs, listCronJobs sender nextRun filters db = .ok jobs →
          ∀ job ∈ jobs, ∀ scripts,
            (submit sender (openJobModal scripts (some job)) db = .ok db ↔ Unaltered job))
      sample [shorten] := by
  constructor
  · decide
  · exact untouched_save_iff sampleBcrypt sampleSettings sample_filled [shorten]

/-- The dialog without a script is taken, and the job keeps the one it has. -/
theorem saved_says_iff_unlinked :
    ((submit administrator unlinked sample).toOption.bind fun db ↦
      (db.liveJob 1).map CronJob.scriptId) = some (some 1) ∧
    Always (step sampleBcrypt sampleSettings) (fun db ↦ ∀ id row, db.liveJob id = some row →
      ∀ scripts form, form.editingJobId = some id →
        (∃ choice ∈ populateScriptSelect scripts row.scriptId, form.script = choice.value) →
          ∀ sender db', submit sender form db = .ok db' →
            ∃ row', db'.liveJob id = some row' ∧
              (Says row' form ↔
                (trim isBlank form.description = [] → row.description.getD [] = []) ∧
                  (form.script = [] → row.scriptId = none)))
      sample [shorten] := by
  constructor
  · decide
  · exact saved_says_iff sampleBcrypt sampleSettings sample_filled [shorten]

end Sample

end CronPanel.Frontend.Resaved
