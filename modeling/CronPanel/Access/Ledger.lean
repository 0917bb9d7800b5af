import Mathlib.Data.List.Chain
import CronPanel.Api.Frames
import CronPanel.Library.Run
import CronPanel.Scheduler.Eligibility
import CronPanel.Services.History

namespace CronPanel.Access.Ledger

open Library.Strings Library.JsonData Library.JsonText Library.Tables Library.Fallible Library.Run Library.Diffs
open Cron.Elements Data.Records Data.Repositories Schemas.Bodies
open Services.Audit Services.CronJobs Services.Scripts Services.Trail Services.History
open Api.Errors Api.CronJobs Api.Operations Api.Frames Scheduler.Eligibility

/-- The database, with the row of each job as it was first stored. -/
structure Ledger where
  db : Database
  created : ℕ → Option CronJob

/-- One request; a request that fails leaves everything as it is. -/
def Ledger.step (s : Ledger) (op : Operation) : Option Ledger :=
  match op.commit s.db with
  | .error _ => some s
  | .ok (db, _) => some ⟨db, fun id ↦ (s.created id).or (db.cronJobs.get? id)⟩

/-- A panel without jobs, and without any record of one. -/
structure Blank (db : Database) : Prop where
  cronJobs : db.cronJobs = .empty
  history : db.cronJobHistory = .empty
  log : logged isJobAction db = []

def flagsAfter (flags : Bool × Bool) : HistoryAction → Bool × Bool
  | .created => (true, false)
  | .updated => flags
  | .enabled => (true, flags.2)
  | .disabled => (false, flags.2)
  | .deleted => (false, true)

def isSwitch : HistoryAction → Bool
  | .enabled | .disabled => true
  | _ => false

/-- The switches of a job, which its creation leaves enabled. -/
def switches (actions : List HistoryAction) : List HistoryAction :=
  .enabled :: actions.filter isSwitch

/-- What an entry of the history keeps of a diff, and what the panel reads from it. -/
def Keeps (entry : CronJobHistory) (ds : List (Diff Column Json)) : Prop :=
  entry.changes = serializeChanges (ds.map changeOf) ∧
    parseChanges entry.changes = if ds = [] then none else some (changesJson (ds.map changeOf))

/-- What the history of a job and its entries in the trail say of its row, and of the row as
it was created. -/
structure Mirrors (created row : CronJob) (history : List CronJobHistory)
    (entries : List AuditLog) : Prop where
  diffs : ∃ diffs, List.Forall₂ Keeps history diffs ∧
    Undoes (columns row) diffs.flatten.reverse (columns created)
  flags : (history.map CronJobHistory.action).foldl flagsAfter (false, false) =
    (row.isActive, row.isDeleted)
  alternate : (switches (history.map CronJobHistory.action)).IsChain (· ≠ ·)
  entries : entries.map AuditLog.action = (history.map CronJobHistory.action).map auditAction

theorem parse_serializeChanges {changes : List Change} (h : Recordable changes) :
    parseChanges (serializeChanges changes) =
      if changes = [] then none else some (changesJson changes) := by
  unfold serializeChanges
  by_cases hnil : changes = []
  · rw [if_pos hnil, hnil]
    rfl
  · have hwritten : dumps (changesJson changes) ≠ [] := by
      obtain ⟨c, u, hc, -⟩ := starts_dumps (changesJson changes)
      rw [hc]
      exact List.cons_ne_nil c u
    rw [if_neg hnil, if_neg (by simpa using hnil)]
    simp only [parseChanges, if_neg hwritten, loads_dumps h.distinct]
    rfl

theorem keeps_of_recordable {entry : CronJobHistory} {ds : List (Diff Column Json)}
    (hchanges : entry.changes = serializeChanges (ds.map changeOf))
    (h : Recordable (ds.map changeOf)) : Keeps entry ds := by
  refine ⟨hchanges, ?_⟩
  rw [hchanges, parse_serializeChanges h]
  simp only [List.map_eq_nil_iff]

/-- The last switch of a job that is not deleted says whether it is active. -/
def Standing (row : CronJob) (history : List CronJobHistory) : Prop :=
  row.isDeleted = false → (switches (history.map CronJobHistory.action)).getLast? =
    some (if row.isActive then .enabled else .disabled)

theorem switches_append (actions : List HistoryAction) (action : HistoryAction) :
    switches (actions ++ [action]) =
      switches actions ++ if isSwitch action then [action] else [] := by
  rw [switches, List.filter_append, switches, List.cons_append]
  cases h : isSwitch action <;> simp [h]

theorem switches_alternate {actions : List HistoryAction} {action last : HistoryAction}
    (h : (switches actions).IsChain (· ≠ ·)) (hlast : (switches actions).getLast? = some last)
    (hne : last ≠ action) : (switches actions ++ [action]).IsChain (· ≠ ·) := by
  refine h.append (List.isChain_singleton action) ?_
  intro x hx y hy
  obtain rfl := Option.some.inj (hlast.symm.trans hx)
  obtain rfl := Option.some.inj hy
  exact hne

section

variable {created old row : CronJob} {history : List CronJobHistory} {entries : List AuditLog}
variable {entry : CronJobHistory} {log : AuditLog} {action : HistoryAction} {changes : List Change}

theorem mirrors_created (hactive : row.isActive = true) (hkept : row.isDeleted = false)
    (haction : entry.action = .created) (hchanges : entry.changes = serializeChanges [])
    (hlog : log.action = auditAction .created) :
    Mirrors row row [entry] [log] ∧ Standing row [entry] := by
  have hkeeps : Keeps entry [] := ⟨hchanges, by rw [hchanges]; rfl⟩
  refine ⟨⟨⟨[[]], .cons hkeeps .nil, rfl⟩, ?_, ?_, ?_⟩, ?_⟩
  · simp [haction, flagsAfter, hactive, hkept]
  · simp [haction, switches, isSwitch]
  · simp [haction, hlog]
  · intro _
    simp [haction, switches, isSwitch, hactive]

theorem transition_leads (h : Transition (some old) action changes row) :
    Recordable changes ∧ Leads old changes row := by
  have hnone : Recordable [] := ⟨List.nodup_nil, fun _ h ↦ by cases h⟩
  cases h with
  | updated _ _ hrecordable hleads => exact ⟨hrecordable, hleads⟩
  | enabled _ _ hcolumns => exact ⟨hnone, [], rfl, hcolumns⟩
  | disabled _ _ hcolumns => exact ⟨hnone, [], rfl, hcolumns⟩
  | deleted _ hcolumns => exact ⟨hnone, [], rfl, hcolumns⟩

theorem transition_flags (h : Transition (some old) action changes row) :
    flagsAfter (old.isActive, old.isDeleted) action = (row.isActive, row.isDeleted) := by
  cases h with
  | updated _ _ _ _ hactive hkept => rw [hactive, hkept, flagsAfter]
  | enabled hlive _ _ hactive hkept => rw [hactive, hkept, flagsAfter, hlive]
  | disabled hlive _ _ hpaused hkept => rw [hpaused, hkept, flagsAfter, hlive]
  | deleted _ _ hpaused hgone => rw [hpaused, hgone, flagsAfter]

/-- A switch is another one than the last, and what the row says next. -/
theorem transition_switches {actions : List HistoryAction}
    (h : Transition (some old) action changes row) (halternate : (switches actions).IsChain (· ≠ ·))
    (hlast : old.isDeleted = false →
      (switches actions).getLast? = some (if old.isActive then .enabled else .disabled)) :
    (switches (actions ++ [action])).IsChain (· ≠ ·) ∧ (row.isDeleted = false →
      (switches (actions ++ [action])).getLast? =
        some (if row.isActive then .enabled else .disabled)) := by
  rw [switches_append]
  cases h with
  | updated hlive _ _ _ hactive _ =>
    have hother : isSwitch .updated = false := rfl
    rw [hother, if_neg Bool.false_ne_true, List.append_nil, hactive]
    exact ⟨halternate, fun _ ↦ hlast hlive⟩
  | enabled hlive hpaused _ hactive _ =>
    have hbefore := hlast hlive
    rw [hpaused] at hbefore
    rw [isSwitch, if_pos rfl, hactive]
    exact ⟨switches_alternate halternate hbefore (by decide), fun _ ↦ List.getLast?_concat⟩
  | disabled hlive hactive _ hpaused _ =>
    have hbefore := hlast hlive
    rw [hactive] at hbefore
    rw [isSwitch, if_pos rfl, hpaused]
    exact ⟨switches_alternate halternate hbefore (by decide), fun _ ↦ List.getLast?_concat⟩
  | deleted _ _ _ hgone =>
    have hother : isSwitch .deleted = false := rfl
    rw [hother, if_neg Bool.false_ne_true, List.append_nil]
    refine ⟨halternate, ?_⟩
    intro hkept
    rw [hgone] at hkept
    cases hkept

/-- A transition of the row keeps the mirror, whatever the history was. -/
theorem Mirrors.next (h : Mirrors created old history entries) (hstanding : Standing old history)
    (htransition : Transition (some old) action changes row) (haction : entry.action = action)
    (hchanges : entry.changes = serializeChanges changes) (hlog : log.action = auditAction action) :
    Mirrors created row (history ++ [entry]) (entries ++ [log]) ∧
      Standing row (history ++ [entry]) := by
  have hactions : (history ++ [entry]).map CronJobHistory.action =
      history.map CronJobHistory.action ++ [action] := by
    rw [List.map_append, List.map_singleton, haction]
  obtain ⟨halternate, hlast⟩ := transition_switches htransition h.alternate hstanding
  obtain ⟨hrecordable, ds, rfl, happlies⟩ := transition_leads htransition
  obtain ⟨diffs, hkept, hundo⟩ := h.diffs
  refine ⟨⟨⟨diffs ++ [ds], ?_, ?_⟩, ?_, ?_, ?_⟩, ?_⟩
  · exact List.rel_append hkept (.cons (keeps_of_recordable hchanges hrecordable) .nil)
  · rw [List.flatten_append, List.flatten_singleton, List.reverse_append]
    exact happlies.undoes.append hundo
  · rw [hactions, List.foldl_append, h.flags]
    exact transition_flags htransition
  · rw [hactions]
    exact halternate
  · rw [hactions, List.map_append, List.map_append, h.entries, List.map_singleton,
      List.map_singleton, hlog]
  · unfold Standing
    rw [hactions]
    exact hlast

end

/-- A job has been created and its history mirrors it; without a job, nothing is recorded. -/
def Recounted (s : Ledger) (id : ℕ) : Prop :=
  match s.db.cronJobs.get? id with
  | none => s.created id = none ∧ historyOf s.db id = [] ∧ jobEntries s.db id = []
  | some row => ∃ created, s.created id = some created ∧
      Mirrors created row (historyOf s.db id) (jobEntries s.db id) ∧
        Standing row (historyOf s.db id)

section

variable {db db' : Database} {op : Operation} {n : Notification}

theorem checked_schedule {body checked : CronJobUpdate} (h : body.validate = .ok checked) (t : Text)
    (ht : checked.scheduleExpression = some t) : ∃ s : Schedule, t = s.text := by
  obtain ⟨-, ⟨-, hnone⟩ | ⟨x, s, -, -, hs⟩⟩ := CronJobUpdate.validate_ok h
  · rw [hnone] at ht
    cases ht
  · exact ⟨s, Option.some.inj (ht.symm.trans hs)⟩

theorem recordScriptUpdate_unrecorded (call : Call) (id : ℕ) (old new : Script)
    (changes : List Change) (db : Database) :
    Unrecorded db (recordScriptUpdate call id old new changes db) := by
  have hevent (db : Database) (action : AuditAction) (haction : isJobAction action = false)
      (details : List (Text × Json)) :
      logged isJobAction (recordScriptEvent call action id details db) = logged isJobAction db :=
    logged_other haction call.now db
  unfold recordScriptUpdate
  split_ifs
  · exact ⟨rfl, rfl, hevent _ _ rfl _⟩
  · exact ⟨rfl, rfl, (hevent _ _ rfl _).trans (hevent _ _ rfl _)⟩
  · exact ⟨rfl, rfl, (hevent _ _ rfl _).trans (hevent _ _ rfl _)⟩

theorem commit_recorded (h : op.commit db = .ok (db', n)) :
    Unrecorded db db' ∨ ∃ id action changes row, Recorded db db' id action changes row := by
  obtain ⟨call, hperformed⟩ := commit_ok h
  cases op with
  | createCronJob sender body =>
    obtain ⟨⟨id, db₁⟩, hc, h⟩ := bind_eq_ok.mp h
    cases h
    obtain ⟨call, -, hc⟩ := bind_eq_ok.mp hc
    obtain ⟨checked, hchecked, hc⟩ := bind_eq_ok.mp hc
    obtain ⟨-, s, -, hs⟩ := CronJobCreate.validate_ok (mapError_eq_ok.mp hchecked)
    obtain ⟨row, hrow⟩ := createCronJob_recorded hs (mapError_eq_ok.mp hc)
    exact .inr ⟨id, _, _, row, hrow⟩
  | updateCronJob sender id body =>
    obtain ⟨db₁, hc, h⟩ := bind_eq_ok.mp h
    cases h
    obtain ⟨call, -, hc⟩ := bind_eq_ok.mp hc
    obtain ⟨checked, hchecked, hc⟩ := bind_eq_ok.mp hc
    have hschedule := checked_schedule (mapError_eq_ok.mp hchecked)
    obtain rfl | ⟨changes, row, hrow⟩ := updateCronJob_recorded hschedule (mapError_eq_ok.mp hc)
    · exact .inl (.refl _)
    · exact .inr ⟨id, _, changes, row, hrow⟩
  | updateCronJobStatus sender id isActive =>
    obtain rfl | ⟨action, row, hrow⟩ := updateCronJobStatus_recorded hperformed.2
    · exact .inl (.refl _)
    · exact .inr ⟨id, action, _, row, hrow⟩
  | deleteCronJob sender id =>
    obtain ⟨row, hrow⟩ := deleteCronJob_recorded hperformed.2
    exact .inr ⟨id, _, _, row, hrow⟩
  | createScript sender host body =>
    obtain ⟨-, checked, id, hc⟩ := hperformed
    obtain ⟨validated, -, hc⟩ := bind_eq_ok.mp hc
    dsimp only at hc
    split_ifs at hc
    cases hc
    exact .inl ⟨rfl, rfl, logged_other rfl _ _⟩
  | updateScript sender host id body =>
    obtain ⟨-, checked, hc⟩ := hperformed
    obtain ⟨script, -, hc⟩ := bind_eq_ok.mp hc
    obtain ⟨⟨edited, changes⟩, -, hc⟩ := bind_eq_ok.mp hc
    dsimp only at hc
    left
    split_ifs at hc
    · cases hc
      exact .refl _
    all_goals
      cases hc
      have hwritten := recordScriptUpdate_unrecorded call id script edited changes
      exact ⟨(hwritten _).cronJobs, (hwritten _).history, (hwritten _).log⟩
  | deleteScript sender id =>
    obtain ⟨-, hc⟩ := hperformed
    obtain ⟨script, -, hc⟩ := bind_eq_ok.mp hc
    split_ifs at hc
    cases hc
    exact .inl ⟨rfl, rfl, logged_other rfl _ _⟩

theorem transition_irrefl {row : CronJob} {action : HistoryAction} {changes : List Change}
    (h : Transition (some row) action changes row) : False := by
  cases h with
  | updated _ hchanged hrecordable hleads =>
    obtain ⟨ds, rfl, happlies⟩ := hleads
    have hfields : (ds.map Diff.field).Nodup := by
      have hnames := hrecordable.fields
      rw [List.map_map] at hnames
      exact List.Nodup.of_map Column.text (by rw [List.map_map]; exact hnames)
    obtain ⟨d, hd⟩ := List.exists_mem_of_ne_nil ds fun hnil ↦ hchanged (by rw [hnil]; rfl)
    obtain ⟨hbefore, hafter, hne⟩ := (happlies.values hfields).1 d hd
    exact hne (hafter.symm.trans hbefore)
  | enabled _ hpaused _ hactive =>
    rw [hpaused] at hactive
    cases hactive
  | disabled _ hactive _ hpaused =>
    rw [hactive] at hpaused
    cases hpaused
  | deleted hlive _ _ hgone =>
    rw [hlive] at hgone
    cases hgone

theorem Recounted.kept {s t : Ledger} {id : ℕ} (h : Recounted s id)
    (hcreated : t.created id = (s.created id).or (t.db.cronJobs.get? id))
    (hjob : t.db.cronJobs.get? id = s.db.cronJobs.get? id)
    (hhistory : historyOf t.db id = historyOf s.db id)
    (hentries : jobEntries t.db id = jobEntries s.db id) : Recounted t id := by
  unfold Recounted at h ⊢
  rw [hcreated, hjob, hhistory, hentries]
  cases hrow : s.db.cronJobs.get? id with
  | none =>
    rw [hrow] at h
    dsimp only at h ⊢
    rw [h.1]
    exact ⟨rfl, h.2⟩
  | some row =>
    rw [hrow] at h
    obtain ⟨created, hfirst, hmirrors⟩ := h
    dsimp only
    rw [hfirst]
    exact ⟨created, rfl, hmirrors⟩

theorem Recounted.recorded {s t : Ledger} {id : ℕ} {action : HistoryAction} {changes : List Change}
    {row : CronJob} (h : Recounted s id)
    (hcreated : t.created id = (s.created id).or (t.db.cronJobs.get? id))
    (hrecorded : Recorded s.db t.db id action changes row) : Recounted t id := by
  obtain ⟨entry, haction, hchanges, hhistory, -⟩ := hrecorded.historyOf
  obtain ⟨log, hlog, hentries, -⟩ := hrecorded.jobEntries
  have hrow : t.db.cronJobs.get? id = some row := by rw [hrecorded.cronJobs, Table.get?_set_self]
  have htransition := hrecorded.transition
  unfold Recounted at h ⊢
  rw [hcreated, hrow, hhistory, hentries]
  dsimp only
  cases hold : s.db.cronJobs.get? id with
  | none =>
    rw [hold] at htransition h
    obtain ⟨hnone, hempty, hempty'⟩ := h
    rw [hnone, hempty, hempty']
    cases htransition with
    | created hactive hkept =>
      exact ⟨row, rfl, mirrors_created hactive hkept haction hchanges hlog⟩
  | some old =>
    rw [hold] at htransition h
    obtain ⟨created, hfirst, hmirrors, hstanding⟩ := h
    rw [hfirst]
    exact ⟨created, rfl, hmirrors.next hstanding htransition haction hchanges hlog⟩

theorem step_recounted {s t : Ledger} (hs : ∀ id, Recounted s id)
    (hstep : Ledger.step s op = some t) (id : ℕ) : Recounted t id := by
  unfold Ledger.step at hstep
  cases hc : op.commit s.db with
  | error e =>
    rw [hc] at hstep
    cases hstep
    exact hs id
  | ok result =>
    obtain ⟨db', n⟩ := result
    rw [hc] at hstep
    cases hstep
    obtain hsame | ⟨changed, action, changes, row, hrecorded⟩ := commit_recorded hc
    · obtain ⟨hhistory, hentries⟩ := hsame.same id
      exact (hs id).kept rfl (by rw [hsame.cronJobs]) hhistory hentries
    · by_cases hid : id = changed
      · subst hid
        exact (hs id).recorded rfl hrecorded
      · obtain ⟨-, -, -, -, hhistory⟩ := hrecorded.historyOf
        obtain ⟨-, -, -, hentries⟩ := hrecorded.jobEntries
        have hjob : db'.cronJobs.get? id = s.db.cronJobs.get? id := by
          rw [hrecorded.cronJobs, Table.get?_set_ne _ _ hid]
        exact (hs id).kept rfl hjob (hhistory id hid) (hentries id hid)

/-- A request that fails, or that changes no job, records nothing. -/
theorem step_silent {s t : Ledger} (hstep : Ledger.step s op = some t)
    (hsilent : ¬Succeeds (op.commit s.db) ∨ t.db.cronJobs = s.db.cronJobs) (id : ℕ) :
    historyOf t.db id = historyOf s.db id ∧ jobEntries t.db id = jobEntries s.db id := by
  unfold Ledger.step at hstep
  cases hc : op.commit s.db with
  | error e =>
    rw [hc] at hstep
    cases hstep
    exact ⟨rfl, rfl⟩
  | ok result =>
    obtain ⟨db', n⟩ := result
    rw [hc] at hstep hsilent
    cases hstep
    rcases hsilent with hfails | hjobs
    · exact absurd ⟨_, rfl⟩ hfails
    · obtain hsame | ⟨j, action, changes, row, hrecorded⟩ := commit_recorded hc
      · exact hsame.same id
      · have htransition := hrecorded.transition
        have hrow : s.db.cronJobs.get? j = some row := by
          rw [← hjobs]
          change db'.cronJobs.get? j = some row
          rw [hrecorded.cronJobs, Table.get?_set_self]
        rw [hrow] at htransition
        exact (transition_irrefl htransition).elim

theorem Blank.recounted (h : Blank db) (id : ℕ) : Recounted ⟨db, fun _ ↦ none⟩ id := by
  have hjob : db.cronJobs.get? id = none := by rw [h.cronJobs, Table.get?_empty]
  unfold Recounted
  dsimp only
  rw [hjob, historyOf, jobEntries, h.history, h.log]
  exact ⟨rfl, rfl, rfl⟩

end

/-- Along every run from a panel without jobs, the history of each job mirrors its row and its
entries in the trail. -/
theorem history_mirrors_jobs {db : Database} (hblank : Blank db) (ops : List Operation) :
    Always Ledger.step (fun s ↦ ∀ id row, s.db.cronJobs.get? id = some row →
        ∃ created, s.created id = some created ∧
          Mirrors created row (historyOf s.db id) (jobEntries s.db id))
      ⟨db, fun _ ↦ none⟩ ops ∧
    Guarded Ledger.step (fun s op ↦ ∀ t, Ledger.step s op = some t →
        ¬Succeeds (op.commit s.db) ∨ t.db.cronJobs = s.db.cronJobs →
        ∀ id, historyOf t.db id = historyOf s.db id ∧ jobEntries t.db id = jobEntries s.db id)
      ⟨db, fun _ ↦ none⟩ ops := by
  constructor
  · have hall : Always Ledger.step (fun s ↦ ∀ id, Recounted s id) ⟨db, fun _ ↦ none⟩ ops :=
      always (fun s op t hs hstep ↦ step_recounted hs hstep) hblank.recounted
    refine always_mono ?_ hall
    intro s hs id row hrow
    have hid := hs id
    unfold Recounted at hid
    rw [hrow] at hid
    obtain ⟨created, hcreated, hmirrors, -⟩ := hid
    exact ⟨created, hcreated, hmirrors⟩
  · exact guarded_of_forall (fun s op t hstep hsilent ↦ step_silent hstep hsilent) _ ops

section Sample

def samplePanel : Database := { sample with cronJobs := .empty }

def sampleSender : Sender := ⟨1, 5, none⟩

/-- A job is created, renamed, renamed to the same name, paused and deleted. -/
def sampleOperations : List Operation :=
  [.createCronJob sampleSender
      { name := "nightly".toList, command := "backup".toList, scheduleExpression := "0 9 * * *".toList },
    .updateCronJob sampleSender 1 { name := some "morning".toList },
    .updateCronJob sampleSender 1 { name := some "morning".toList },
    .updateCronJobStatus sampleSender 1 false,
    .deleteCronJob sampleSender 1]

theorem history_mirrors_jobs_sample :
    (exec Ledger.step ⟨samplePanel, fun _ ↦ none⟩ sampleOperations).map
        (fun s ↦ (historyOf s.db 1).map CronJobHistory.action) =
      some [.created, .updated, .disabled, .deleted] ∧
    Always Ledger.step (fun s ↦ ∀ id row, s.db.cronJobs.get? id = some row →
        ∃ created, s.created id = some created ∧
          Mirrors created row (historyOf s.db id) (jobEntries s.db id))
      ⟨samplePanel, fun _ ↦ none⟩ sampleOperations :=
  ⟨by decide, (history_mirrors_jobs ⟨rfl, rfl, rfl⟩ sampleOperations).1⟩

end Sample

end CronPanel.Access.Ledger
