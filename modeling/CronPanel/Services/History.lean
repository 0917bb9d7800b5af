import CronPanel.Library.Diffs
import CronPanel.Services.CronJobs
import CronPanel.Services.Trail

namespace CronPanel.Services.History

open Function Library.Strings Library.JsonData Library.JsonText Library.Tables Library.Fallible
open Library.Diffs Cron.Elements Data.Records Data.Repositories Schemas.Bodies Audit CronJobs Trail

/-- The columns of a job that its history can name. -/
inductive Column
  | name | description | command | scriptId | scheduleExpression
  deriving DecidableEq, Repr

def Column.text : Column → Text
  | name => "name".toList
  | description => "description".toList
  | command => "command".toList
  | scriptId => "script_id".toList
  | scheduleExpression => "schedule_expression".toList

/-- The columns of a row, as the history writes them. -/
def columns (job : CronJob) : Column → Json
  | .name => .text job.name
  | .description => ofOption .text job.description
  | .command => .text job.command
  | .scriptId => ofOption natural job.scriptId
  | .scheduleExpression => .text job.scheduleExpression

def changeOf (d : Diff Column Json) : Change := ⟨d.field.text, d.before, d.after⟩

/-- The changes are diffs that lead from a row to another. -/
def Leads (job : CronJob) (changes : List Change) (edited : CronJob) : Prop :=
  ∃ ds, changes = ds.map changeOf ∧ Applies (columns job) ds (columns edited)

section

variable {job edited : CronJob}

theorem Leads.refl (job : CronJob) : Leads job [] job := ⟨[], rfl, rfl⟩

theorem Leads.append {after : CronJob} {changes changes' : List Change}
    (h : Leads job changes edited) (h' : Leads edited changes' after) :
    Leads job (changes ++ changes') after := by
  obtain ⟨ds, rfl, hds⟩ := h
  obtain ⟨es, rfl, hes⟩ := h'
  exact ⟨ds ++ es, (List.map_append ..).symm, hds.append hes⟩

theorem setField_leads {α : Type} [DecidableEq α] {encode : α → Json} (column : Column)
    (hencode : Injective encode) {new : Option α} {old : α} (hold : columns job column = encode old)
    (hnew : columns edited = update (columns job) column (encode (new.getD old))) :
    Leads job (setField column.text encode new old).2 edited := by
  have hsame (h : new.getD old = old) : columns edited = columns job := by
    rw [hnew, h, ← hold, update_eq_self]
  unfold setField
  cases new with
  | none => exact ⟨[], rfl, hsame rfl⟩
  | some value =>
    dsimp only
    split_ifs with he
    · exact ⟨[], rfl, hsame he⟩
    · exact ⟨[⟨column, encode old, encode value⟩], rfl, hold, fun hv ↦ he (hencode hv), hnew⟩

theorem text_injective : Injective Json.text := fun _ _ h ↦ Json.text.inj h

theorem natural_injective : Injective natural := fun _ _ h ↦ Int.ofNat.inj (Json.number.inj h)

theorem ofOption_injective {α : Type} {encode : α → Json} (h : Injective encode)
    (hnull : ∀ a, encode a ≠ .null) : Injective (ofOption encode) := by
  intro a b hab
  cases a with
  | none =>
    cases b with
    | none => rfl
    | some b => exact absurd hab.symm (hnull b)
  | some a =>
    cases b with
    | none => exact absurd hab (hnull a)
    | some b => exact congrArg some (h hab)

theorem setSchedule_leads {new : Option Text} {changes : List Change}
    (hnew : ∀ t, new = some t → ∃ s : Schedule, t = s.text)
    (h : setSchedule new job = .ok (edited, changes)) : Leads job changes edited := by
  unfold setSchedule at h
  split at h
  · cases h
    exact .refl job
  · rename_i t
    split_ifs at h with hsame
    · cases h
      exact .refl job
    · -- what is stored is the text of the body itself, so it differs from the old one as that does
      obtain ⟨s, rfl⟩ := hnew t rfl
      rw [applySchedule_text, ok_bind] at h
      cases h
      refine ⟨[⟨.scheduleExpression, _, _⟩], rfl, rfl, fun he ↦ hsame (text_injective he), ?_⟩
      funext column
      cases column <;> rfl

/-- The diff of an update leads from the row before to the row after. -/
theorem editCronJob_leads {body : CronJobUpdate} {changes : List Change}
    (hbody : ∀ t, body.scheduleExpression = some t → ∃ s : Schedule, t = s.text)
    (h : editCronJob body job = .ok (edited, changes)) : Leads job changes edited := by
  simp only [editCronJob, setField_fst] at h
  obtain ⟨⟨rescheduled, onSchedule⟩, hs, h⟩ := bind_eq_ok.mp h
  cases h
  have hnone : ∀ t : Text, Json.text t ≠ .null := fun _ h ↦ Json.noConfusion h
  have hzero : ∀ n : ℕ, natural n ≠ .null := fun _ h ↦ Json.noConfusion h
  let named := { job with name := body.name.getD job.name }
  let described := { named with description := (body.description.map some).getD job.description }
  let commanded := { described with command := body.command.getD job.command }
  let scripted := { commanded with scriptId := (body.scriptId.map some).getD job.scriptId }
  have hname : Leads job _ named := setField_leads .name text_injective rfl
    (funext fun column ↦ by cases column <;> rfl)
  have hdescription : Leads named _ described := setField_leads .description
    (ofOption_injective text_injective hnone) rfl (funext fun column ↦ by cases column <;> rfl)
  have hcommand : Leads described _ commanded := setField_leads .command
    text_injective rfl (funext fun column ↦ by cases column <;> rfl)
  have hscript : Leads commanded _ scripted := setField_leads .scriptId
    (ofOption_injective natural_injective hzero) rfl (funext fun column ↦ by cases column <;> rfl)
  exact ((((hname.append hdescription).append hcommand).append hscript).append
    (setSchedule_leads hbody hs))

/-- What a diff must be to be read back: it names no field twice, and no value is an object
with a key twice. -/
structure Recordable (changes : List Change) : Prop where
  fields : (changes.map Change.field).Nodup
  values : ∀ change ∈ changes, Distinct change.before ∧ Distinct change.after

theorem Recordable.distinct {changes : List Change} (h : Recordable changes) :
    Distinct (changesJson changes) := by
  refine .object ?_ ?_
  · rw [List.map_map]
    exact h.fields
  · intro entry hentry
    obtain ⟨change, hchange, rfl⟩ := List.mem_map.mp hentry
    obtain ⟨hbefore, hafter⟩ := h.values change hchange
    have hkeys : ["from".toList, "to".toList].Nodup := by decide
    refine .object hkeys ?_
    intro value hvalue
    rcases List.mem_cons.mp hvalue with rfl | hvalue
    · exact hbefore
    · obtain rfl := List.mem_singleton.mp hvalue
      exact hafter

theorem distinct_ofOption {α : Type} {encode : α → Json} (h : ∀ a, Distinct (encode a))
    (value : Option α) : Distinct (ofOption encode value) := by
  cases value with
  | none => exact .null
  | some a => exact h a

/-- The changes name a part of the fields, each once and in their order. -/
structure Within (fields : List Text) (changes : List Change) : Prop where
  fields : (changes.map Change.field).Sublist fields
  values : ∀ change ∈ changes, Distinct change.before ∧ Distinct change.after

theorem Within.append {fields fields' : List Text} {changes changes' : List Change}
    (h : Within fields changes) (h' : Within fields' changes') :
    Within (fields ++ fields') (changes ++ changes') := by
  refine ⟨?_, ?_⟩
  · rw [List.map_append]
    exact h.fields.append h'.fields
  · intro change hchange
    rcases List.mem_append.mp hchange with hchange | hchange
    · exact h.values change hchange
    · exact h'.values change hchange

theorem Within.nil (fields : List Text) : Within fields [] := by
  refine ⟨List.nil_sublist fields, ?_⟩
  intro change hchange
  cases hchange

theorem Within.singleton {field : Text} {before after : Json} (h : Distinct before)
    (h' : Distinct after) : Within [field] [⟨field, before, after⟩] := by
  refine ⟨List.Sublist.refl _, ?_⟩
  intro change hchange
  obtain rfl := List.mem_singleton.mp hchange
  exact ⟨h, h'⟩

theorem setField_within {α : Type} [DecidableEq α] {encode : α → Json}
    (h : ∀ a, Distinct (encode a)) (field : Text) (new : Option α) (old : α) :
    Within [field] (setField field encode new old).2 := by
  unfold setField
  cases new with
  | none => exact .nil _
  | some value =>
    dsimp only
    split_ifs
    · exact .nil _
    · exact .singleton (h old) (h value)

theorem setSchedule_within {new : Option Text} {changes : List Change}
    (h : setSchedule new job = .ok (edited, changes)) :
    Within ["schedule_expression".toList] changes := by
  unfold setSchedule at h
  split at h
  · cases h
    exact .nil _
  · split_ifs at h
    · cases h
      exact .nil _
    · obtain ⟨changed, -, h⟩ := bind_eq_ok.mp h
      cases h
      exact .singleton (.text _) (.text _)

theorem editCronJob_recordable {body : CronJobUpdate} {changes : List Change}
    (h : editCronJob body job = .ok (edited, changes)) : Recordable changes := by
  obtain ⟨⟨rescheduled, onSchedule⟩, hs, h⟩ := bind_eq_ok.mp h
  cases h
  have hname := setField_within Distinct.text "name".toList body.name job.name
  have hdescription := setField_within (distinct_ofOption Distinct.text) "description".toList
    (body.description.map some) job.description
  have hcommand := setField_within Distinct.text "command".toList body.command job.command
  have hscript := setField_within (distinct_ofOption fun n : ℕ ↦ Distinct.number n)
    "script_id".toList (body.scriptId.map some) job.scriptId
  have hall := (((hname.append hdescription).append hcommand).append hscript).append
    (setSchedule_within hs)
  have hfields : (["name".toList] ++ ["description".toList] ++ ["command".toList] ++
    ["script_id".toList] ++ ["schedule_expression".toList]).Nodup := by decide
  exact ⟨hall.fields.nodup hfields, hall.values⟩

end

/-- The history of a job, oldest first. -/
def historyOf (db : Database) (id : ℕ) : List CronJobHistory :=
  (db.cronJobHistory.rows.filter fun r ↦ r.2.cronJobId = id).map Prod.snd

def isJobAction : AuditAction → Bool
  | .cronJobCreated | .cronJobUpdated | .cronJobEnabled | .cronJobDisabled | .cronJobDeleted => true
  | _ => false

/-- The entries `CRON_JOB_*` of the trail about a job, oldest first. -/
def jobEntries (db : Database) (id : ℕ) : List AuditLog :=
  (logged isJobAction db).filter fun entry ↦ entry.resourceId = some (decimal id)

def auditAction : HistoryAction → AuditAction
  | .created => .cronJobCreated
  | .updated => .cronJobUpdated
  | .enabled => .cronJobEnabled
  | .disabled => .cronJobDisabled
  | .deleted => .cronJobDeleted

/-- How an action of the history takes the row of a job, absent before its creation, to the
next one. -/
inductive Transition : Option CronJob → HistoryAction → List Change → CronJob → Prop
  | created {row : CronJob} (hactive : row.isActive = true) (hkept : row.isDeleted = false) :
    Transition none .created [] row
  | updated {old row : CronJob} {changes : List Change} (hlive : old.isDeleted = false)
    (hchanged : changes ≠ []) (hrecordable : Recordable changes) (hleads : Leads old changes row)
    (hactive : row.isActive = old.isActive) (hkept : row.isDeleted = old.isDeleted) :
    Transition (some old) .updated changes row
  | enabled {old row : CronJob} (hlive : old.isDeleted = false) (hpaused : old.isActive = false)
    (hcolumns : columns row = columns old) (hactive : row.isActive = true)
    (hkept : row.isDeleted = false) : Transition (some old) .enabled [] row
  | disabled {old row : CronJob} (hlive : old.isDeleted = false) (hactive : old.isActive = true)
    (hcolumns : columns row = columns old) (hpaused : row.isActive = false)
    (hkept : row.isDeleted = false) : Transition (some old) .disabled [] row
  | deleted {old row : CronJob} (hlive : old.isDeleted = false)
    (hcolumns : columns row = columns old) (hpaused : row.isActive = false)
    (hgone : row.isDeleted = true) : Transition (some old) .deleted [] row

/-- An operation that changes one job: its row, one row of its history and one entry of the
trail. -/
structure Recorded (db db' : Database) (id : ℕ) (action : HistoryAction) (changes : List Change)
    (row : CronJob) : Prop where
  transition : Transition (db.cronJobs.get? id) action changes row
  cronJobs : db'.cronJobs = db.cronJobs.set id row
  history : ∃ entry, entry.cronJobId = id ∧ entry.action = action ∧
    entry.changes = serializeChanges changes ∧
    db'.cronJobHistory = (db.cronJobHistory.insert entry).2
  log : ∃ entry, entry.action = auditAction action ∧ entry.resourceId = some (decimal id) ∧
    logged isJobAction db' = logged isJobAction db ++ [entry]

/-- An operation that leaves the jobs, their history and their entries in the trail alone. -/
structure Unrecorded (db db' : Database) : Prop where
  cronJobs : db'.cronJobs = db.cronJobs
  history : db'.cronJobHistory = db.cronJobHistory
  log : logged isJobAction db' = logged isJobAction db

section

variable {call : Call} {id : ℕ} {db db' : Database} {row : CronJob}

theorem isJobAction_auditAction (action : HistoryAction) : isJobAction (auditAction action) := by
  cases action <;> rfl

theorem Unrecorded.refl (db : Database) : Unrecorded db db := ⟨rfl, rfl, rfl⟩

theorem recorded {action : HistoryAction} {changes : List Change} (details : List (Text × Json))
    (h : Transition (db.cronJobs.get? id) action changes row) :
    Recorded db (recordJobEvent call (auditAction action) id details
      (recordHistory call id action changes { db with cronJobs := db.cronJobs.set id row }))
      id action changes row := by
  refine ⟨h, rfl, ⟨_, rfl, rfl, rfl, rfl⟩, ?_⟩
  unfold recordJobEvent
  rw [logged_recordEvent, if_pos (isJobAction_auditAction action)]
  exact ⟨_, rfl, rfl, rfl⟩

theorem createCronJob_recorded {body : CronJobCreate} {s : Schedule}
    (hs : body.scheduleExpression = s.text) (h : createCronJob call body db = .ok (id, db')) :
    ∃ row, Recorded db db' id .created [] row := by
  obtain ⟨⟨⟩, -, h⟩ := bind_eq_ok.mp h
  rw [hs, applySchedule_text, ok_bind] at h
  cases h
  have htransition {row : CronJob} (hactive : row.isActive = true) (hkept : row.isDeleted = false) :
      Transition (db.cronJobs.get? db.cronJobs.nextId) .created [] row := by
    rw [Table.get?_nextId]
    exact .created hactive hkept
  exact ⟨_, recorded _ (htransition rfl rfl)⟩

theorem touch_columns (now : Instant) (old new : CronJob) :
    columns (touch now old new) = columns new := by
  unfold touch
  split_ifs with h
  · rw [h]
  · funext column
    cases column <;> rfl

theorem updateCronJob_recorded {body : CronJobUpdate}
    (hbody : ∀ t, body.scheduleExpression = some t → ∃ s : Schedule, t = s.text)
    (h : updateCronJob call id body db = .ok db') :
    db' = db ∨ ∃ changes row, Recorded db db' id .updated changes row := by
  obtain ⟨job, hjob, h⟩ := bind_eq_ok.mp h
  obtain ⟨hlive, -⟩ := getJobForWrite_ok hjob
  obtain ⟨hget, hkept⟩ := Database.liveJob_eq_some.mp hlive
  obtain ⟨⟨⟩, -, h⟩ := bind_eq_ok.mp h
  obtain ⟨⟨edited, changes⟩, hedit, h⟩ := bind_eq_ok.mp h
  obtain ⟨hactive, hdeleted, -⟩ := editCronJob_ok hbody hedit
  obtain ⟨ds, hds, happlies⟩ := editCronJob_leads hbody hedit
  dsimp only at h
  split_ifs at h with hnil
  · exact .inl (Except.ok.inj h).symm
  · cases h
    right
    refine ⟨changes, touch call.now job edited, recorded _ (hget ▸ ?_)⟩
    refine .updated hkept hnil (editCronJob_recordable hedit) ⟨ds, hds, ?_⟩ ?_ ?_
    · rw [touch_columns]
      exact happlies
    · unfold touch
      split_ifs
      · rfl
      · exact hactive
    · unfold touch
      split_ifs
      · rfl
      · exact hdeleted

theorem updateCronJobStatus_recorded {isActive : Bool}
    (h : updateCronJobStatus call id isActive db = .ok db') :
    db' = db ∨ ∃ action row, Recorded db db' id action [] row := by
  obtain ⟨job, hjob, h⟩ := bind_eq_ok.mp h
  obtain ⟨hlive, -⟩ := getJobForWrite_ok hjob
  obtain ⟨hget, hkept⟩ := Database.liveJob_eq_some.mp hlive
  have hcolumns : columns { job with isActive, updatedAt := call.now } = columns job :=
    funext fun column ↦ by cases column <;> rfl
  by_cases hsame : job.isActive = isActive
  · rw [if_pos hsame] at h
    exact .inl (Except.ok.inj h).symm
  · rw [if_neg hsame] at h
    right
    cases isActive with
    | true =>
      cases h
      have hpaused : job.isActive = false := Bool.eq_false_iff.mpr hsame
      exact ⟨.enabled, _, recorded _ (hget ▸ .enabled hkept hpaused hcolumns rfl hkept)⟩
    | false =>
      cases h
      have hrunning : job.isActive = true := Bool.eq_true_of_not_eq_false hsame
      exact ⟨.disabled, _, recorded _ (hget ▸ .disabled hkept hrunning hcolumns rfl hkept)⟩

theorem deleteCronJob_recorded (h : deleteCronJob call id db = .ok db') :
    ∃ row, Recorded db db' id .deleted [] row := by
  obtain ⟨job, hjob, h⟩ := bind_eq_ok.mp h
  obtain ⟨hlive, -⟩ := getJobForWrite_ok hjob
  obtain ⟨hget, hkept⟩ := Database.liveJob_eq_some.mp hlive
  cases h
  have hcolumns : columns { job with isDeleted := true, isActive := false, updatedAt := call.now } =
    columns job := funext fun column ↦ by cases column <;> rfl
  exact ⟨_, recorded _ (hget ▸ .deleted hkept hcolumns rfl rfl)⟩

theorem Recorded.historyOf {action : HistoryAction} {changes : List Change}
    (h : Recorded db db' id action changes row) :
    ∃ entry, entry.action = action ∧ entry.changes = serializeChanges changes ∧
      historyOf db' id = historyOf db id ++ [entry] ∧
      ∀ j ≠ id, historyOf db' j = historyOf db j := by
  obtain ⟨entry, hid, haction, hchanges, hinsert⟩ := h.history
  refine ⟨entry, haction, hchanges, ?_, ?_⟩
  · rw [History.historyOf, hinsert, Table.rows_insert, List.filter_append, List.map_append]
    congr 1
    simp [hid]
  · intro j hj
    rw [History.historyOf, hinsert, Table.rows_insert, List.filter_append, List.map_append]
    simp [hid, hj.symm, History.historyOf]

theorem Recorded.jobEntries {action : HistoryAction} {changes : List Change}
    (h : Recorded db db' id action changes row) :
    ∃ entry, entry.action = auditAction action ∧ jobEntries db' id = jobEntries db id ++ [entry] ∧
      ∀ j ≠ id, jobEntries db' j = jobEntries db j := by
  obtain ⟨entry, haction, hid, hlog⟩ := h.log
  refine ⟨entry, haction, ?_, ?_⟩
  · rw [History.jobEntries, hlog, List.filter_append]
    congr 1
    simp [hid]
  · intro j hj
    have hother : decimal id ≠ decimal j := fun he ↦ hj (decimal_inj he).symm
    rw [History.jobEntries, hlog, List.filter_append]
    simp [hid, hother, History.jobEntries]

theorem Unrecorded.same (h : Unrecorded db db') (id : ℕ) :
    historyOf db' id = historyOf db id ∧ jobEntries db' id = jobEntries db id := by
  unfold historyOf jobEntries
  rw [h.history, h.log]
  exact ⟨rfl, rfl⟩

end

end CronPanel.Services.History
