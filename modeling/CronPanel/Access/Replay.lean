import CronPanel.Access.Interleaved
import CronPanel.Access.Ledger

namespace CronPanel.Access.Replay

open Library.Strings Library.JsonData Library.Tables Library.Fallible Library.Run Library.Diffs
open Library.Sessions Library.WriteBack Cron.Elements Data.Records Data.Repositories Schemas.Bodies
open Services.CronJobs Services.History Services.RowSnapshots
open Api.Errors Api.Operations Api.Stages Ledger Interleaved

/-- The rows as they were first stored, after a commit. -/
def follow (s : Ledger) (db : Database) : Ledger :=
  ⟨db, fun id ↦ (s.created id).or (db.cronJobs.get? id)⟩

/-- The requests in progress, on a database with the row of each job as it was first stored. -/
def ledgerHandler : Handler Ledger Operation Stage := handler.beside Ledger.db follow

/-- Undone from the newest entry to the oldest, the diffs of a history lead from the row back to
the row as it was created. -/
def LeadsBack (created row : CronJob) (history : List CronJobHistory) : Prop :=
  ∃ diffs, List.Forall₂ Keeps history diffs ∧
    Undoes (columns row) diffs.flatten.reverse (columns created)

/-- The history of every job leads back to the row as it was created. -/
def Retraced (s : Ledger) : Prop :=
  ∀ id row, s.db.cronJobs.get? id = some row →
    ∃ created, s.created id = some created ∧ LeadsBack created row (historyOf s.db id)

/-- An update finds each column that it changes as it has read it. -/
def FindsColumns (s : Ledger) (_ : Operation) (stage : Stage) : Prop :=
  match stage.progress with
  | .ready (.updateCronJob id body job) =>
    ∀ edited changes stored, editCronJob body job = .ok (edited, changes) →
      s.db.cronJobs.get? id = some stored → ∀ column, columns edited column ≠ columns job column →
        columns stored column = columns job column
  | _ => True

/-- A commit that writes the row of a job, with an entry of its history. -/
structure Noted (db db' : Database) (id : ℕ) (changes : List Change) (row : CronJob) : Prop where
  cronJobs : db'.cronJobs = db.cronJobs.set id row
  history : ∃ entry, entry.cronJobId = id ∧ entry.changes = serializeChanges changes ∧
    db'.cronJobHistory = (db.cronJobHistory.insert entry).2

/-- The history of every job leads back, and what is not yet a job has none. -/
structure Retracing (s : Ledger) : Prop where
  retraced : Retraced s
  absent : ∀ id, s.db.cronJobs.get? id = none → s.created id = none ∧ historyOf s.db id = []

section

variable {db db' : Database} {call : Call} {id : ℕ} {job edited stored : CronJob}
variable {entry : CronJobHistory} {history : List CronJobHistory} {ds es : List (Diff Column Json)}

theorem columnText_injective : Column.text.Injective := by
  intro a b h
  cases a <;> cases b <;> first | rfl | exact absurd h (by decide)

theorem changeOf_injective : changeOf.Injective := by
  intro d e h
  obtain ⟨hfield, hbefore, hafter⟩ := Change.mk.inj h
  obtain ⟨field, before, after⟩ := d
  obtain rfl := columnText_injective hfield
  obtain rfl := hbefore
  obtain rfl := hafter
  rfl

theorem changesJson_injective : changesJson.Injective := by
  intro changes changes' h
  refine List.map_injective_iff.mpr ?_ (Json.object.inj h)
  intro c d hcd
  obtain ⟨hfield, hvalues⟩ := Prod.mk.inj hcd
  simp only [Json.object.injEq, List.cons.injEq, Prod.mk.injEq, and_true, true_and] at hvalues
  obtain ⟨hbefore, hafter⟩ := hvalues
  exact Change.mk.injEq .. |>.mpr ⟨hfield, hbefore, hafter⟩

/-- An entry keeps one list of diffs only. -/
theorem keep_unique (h : Keeps entry ds) (h' : Keeps entry es) : ds = es := by
  have hparsed := h.2.symm.trans h'.2
  split_ifs at hparsed with hds hes hes
  · rw [hds, hes]
  · exact List.map_injective_iff.mpr changeOf_injective
      (changesJson_injective (Option.some.inj hparsed))

theorem keeps_unique {diffs diffs' : List (List (Diff Column Json))}
    (h : List.Forall₂ Keeps history diffs) (h' : List.Forall₂ Keeps history diffs') :
    diffs = diffs' := by
  induction h generalizing diffs' with
  | nil =>
    cases h'
    rfl
  | cons hd _ ih =>
    cases h' with
    | cons hd' h' => rw [keep_unique hd hd', ih h']

/-- A column is written when the session has changed it, and is kept otherwise. -/
theorem encode_writeColumn {α : Type} [DecidableEq α] {encode : α → Json}
    (h : Function.Injective encode) (read new old : α) :
    (encode new = encode read → encode (writeColumn read new old) = encode old) ∧
      (encode new ≠ encode read → encode (writeColumn read new old) = encode new) := by
  constructor
  · intro hsame
    rw [h hsame, writeColumn_same]
  · intro hne
    rw [writeColumn_ne fun heq ↦ hne (congrArg encode heq)]

theorem columns_writeJob (now : Instant) (job edited stored : CronJob) (column : Column) :
    (columns edited column = columns job column →
        columns (writeJob now job edited stored) column = columns stored column) ∧
      (columns edited column ≠ columns job column →
        columns (writeJob now job edited stored) column = columns edited column) := by
  have hnone : ∀ t : Text, Json.text t ≠ .null := fun _ h ↦ Json.noConfusion h
  have hzero : ∀ n : ℕ, natural n ≠ .null := fun _ h ↦ Json.noConfusion h
  cases column with
  | name => exact encode_writeColumn text_injective _ _ _
  | description => exact encode_writeColumn (ofOption_injective text_injective hnone) _ _ _
  | command => exact encode_writeColumn text_injective _ _ _
  | scriptId => exact encode_writeColumn (ofOption_injective natural_injective hzero) _ _ _
  | scheduleExpression => exact encode_writeColumn text_injective _ _ _

theorem columns_writeJob_kept (now : Instant) (h : columns edited = columns job) :
    columns (writeJob now job edited stored) = columns stored :=
  funext fun column ↦ (columns_writeJob now job edited stored column).1 (congrFun h column)

/-- The changes of an update, made on another row than the one that they were found on, when each
column that they change is the same in both. -/
theorem applies_writeJob (now : Instant) (hfields : (ds.map Diff.field).Nodup)
    (h : Applies (columns job) ds (columns edited))
    (hfinds : ∀ column, columns edited column ≠ columns job column →
      columns stored column = columns job column) :
    Applies (columns stored) ds (columns (writeJob now job edited stored)) := by
  obtain ⟨hvalues, hothers⟩ := h.values hfields
  refine applies_of_values hfields ?_ ?_
  · intro d hd
    obtain ⟨hbefore, hafter, hchanged⟩ := hvalues d hd
    have hne : columns edited d.field ≠ columns job d.field := by rwa [hbefore, hafter]
    refine ⟨(hfinds d.field hne).trans hbefore, ?_, hchanged⟩
    rw [(columns_writeJob now job edited stored d.field).2 hne, hafter]
  · intro f hf
    exact (columns_writeJob now job edited stored f).1 (hothers f hf)

theorem editCronJob_diffs {body : CronJobUpdate} {changes : List Change} (hbody : Texts body)
    (h : editCronJob body job = .ok (edited, changes)) :
    ∃ ds, changes = ds.map changeOf ∧ (ds.map Diff.field).Nodup ∧
      Applies (columns job) ds (columns edited) := by
  obtain ⟨ds, rfl, happlies⟩ := editCronJob_leads hbody h
  have hnames := (editCronJob_recordable h).fields
  rw [List.map_map] at hnames
  exact ⟨ds, rfl, .of_map Column.text (by rw [List.map_map]; exact hnames), happlies⟩

theorem LeadsBack.created {row : CronJob} (hchanges : entry.changes = serializeChanges []) :
    LeadsBack row row [entry] :=
  ⟨[[]], .cons ⟨hchanges, by rw [hchanges]; rfl⟩ .nil, rfl⟩

/-- A change of the row, with its diffs in the history. -/
theorem LeadsBack.next {created row row' : CronJob} (h : LeadsBack created row history)
    (hrecordable : Recordable (ds.map changeOf)) (happlies : Applies (columns row) ds (columns row'))
    (hchanges : entry.changes = serializeChanges (ds.map changeOf)) :
    LeadsBack created row' (history ++ [entry]) := by
  obtain ⟨diffs, hkept, hundo⟩ := h
  refine ⟨diffs ++ [ds], ?_, ?_⟩
  · exact List.rel_append hkept (.cons (keeps_of_recordable hchanges hrecordable) .nil)
  · rw [List.flatten_append, List.flatten_singleton, List.reverse_append]
    exact happlies.undoes.append hundo

/-- A history that leads back from two rows, before its last entry and after it, has in this entry
diffs that lead from the one to the other. -/
theorem LeadsBack.last {created row row' : CronJob} (h : LeadsBack created row history)
    (h' : LeadsBack created row' (history ++ [entry]))
    (hkeeps : Keeps entry ds) : Applies (columns row) ds (columns row') := by
  obtain ⟨diffs, hkept, hundo⟩ := h
  obtain ⟨diffs', hkept', hundo'⟩ := h'
  obtain rfl := keeps_unique (List.rel_append hkept (.cons hkeeps .nil)) hkept'
  rw [List.flatten_append, List.flatten_singleton, List.reverse_append] at hundo'
  obtain ⟨middle, hlast, hrest⟩ := hundo'.split
  have hmiddle : middle = columns row := hrest.applies.unique hundo.applies
  rw [← hmiddle, ← ds.reverse_reverse]
  exact hlast.applies

theorem Noted.historyOf {changes : List Change} {row : CronJob} (h : Noted db db' id changes row) :
    (∃ entry, entry.changes = serializeChanges changes ∧
      historyOf db' id = historyOf db id ++ [entry]) ∧
    ∀ j ≠ id, historyOf db' j = historyOf db j := by
  obtain ⟨entry, hid, hchanges, hinsert⟩ := h.history
  refine ⟨⟨entry, hchanges, ?_⟩, ?_⟩
  · rw [Services.History.historyOf, hinsert, Table.rows_insert, List.filter_append, List.map_append,
      List.filter_cons_of_pos (by simp [hid])]
    rfl
  · intro j hj
    rw [Services.History.historyOf, hinsert, Table.rows_insert, List.filter_append, List.map_append,
      List.filter_cons_of_neg (by simp [hid, hj.symm]), List.filter_nil, List.map_nil,
      List.append_nil]
    rfl

theorem follow_created (s : Ledger) (db : Database) (id : ℕ) :
    (follow s db).created id = (s.created id).or (db.cronJobs.get? id) := rfl

theorem Retracing.kept {s : Ledger} (h : Retracing s) (hjobs : db'.cronJobs = s.db.cronJobs)
    (hhistory : db'.cronJobHistory = s.db.cronJobHistory) : Retracing (follow s db') := by
  constructor
  · intro id row hrow
    change db'.cronJobs.get? id = some row at hrow
    rw [hjobs] at hrow
    obtain ⟨created, hcreated, hback⟩ := h.retraced id row hrow
    refine ⟨created, ?_, ?_⟩
    · rw [follow_created, hcreated, Option.some_or]
    · unfold historyOf at hback ⊢
      rwa [follow, hhistory]
  · intro id hnone
    change db'.cronJobs.get? id = none at hnone
    obtain ⟨hcreated, hempty⟩ := h.absent id (by rwa [← hjobs])
    refine ⟨?_, ?_⟩
    · rw [follow_created, hcreated, hnone, Option.or_none]
    · unfold historyOf at hempty ⊢
      rwa [follow, hhistory]

/-- A new row comes with an entry without changes, and another one with the changes that lead to
it. -/
theorem Retracing.noted {s : Ledger} {changes : List Change} {row : CronJob} (h : Retracing s)
    (hnoted : Noted s.db db' id changes row)
    (hnew : s.db.cronJobs.get? id = none → changes = [])
    (hold : ∀ stored, s.db.cronJobs.get? id = some stored → ∃ ds, changes = ds.map changeOf ∧
      Recordable changes ∧ Applies (columns stored) ds (columns row)) :
    Retracing (follow s db') := by
  obtain ⟨⟨entry, hchanges, hhistory⟩, hothers⟩ := hnoted.historyOf
  have hget (j : ℕ) : db'.cronJobs.get? j = if j = id then some row else s.db.cronJobs.get? j := by
    rw [hnoted.cronJobs, Table.get?_set]
  constructor
  · intro j other hother
    change db'.cronJobs.get? j = some other at hother
    change ∃ created, _ ∧ LeadsBack created other (historyOf db' j)
    rw [follow_created, hother]
    rw [hget] at hother
    split_ifs at hother with hj
    · obtain rfl := hj
      obtain rfl := Option.some.inj hother
      rw [hhistory]
      cases hstored : s.db.cronJobs.get? j with
      | none =>
        obtain ⟨hcreated, hempty⟩ := h.absent j hstored
        rw [hcreated, hempty]
        rw [hnew hstored] at hchanges
        exact ⟨row, rfl, .created hchanges⟩
      | some stored =>
        obtain ⟨created, hcreated, hback⟩ := h.retraced j stored hstored
        obtain ⟨ds, rfl, hrecordable, happlies⟩ := hold stored hstored
        rw [hcreated]
        exact ⟨created, rfl, hback.next hrecordable happlies hchanges⟩
    · obtain ⟨created, hcreated, hback⟩ := h.retraced j other hother
      rw [hcreated, hothers j hj]
      exact ⟨created, rfl, hback⟩
  · intro j hnone
    change db'.cronJobs.get? j = none at hnone
    change _ ∧ historyOf db' j = []
    rw [follow_created, hnone]
    rw [hget] at hnone
    split_ifs at hnone with hj
    obtain ⟨hcreated, hempty⟩ := h.absent j hnone
    rw [hcreated, hothers j hj, hempty]
    exact ⟨rfl, rfl⟩

theorem noted_of_flush {flushed : Database} (hne : edited ≠ job)
    (h : flushJob call.now id job edited db = some flushed) (action : HistoryAction)
    (changes : List Change) (event : AuditAction) (details : List (Text × Json)) :
    ∃ stored, db.cronJobs.get? id = some stored ∧
      Noted db (recordJobEvent call event id details (recordHistory call id action changes flushed))
        id changes (writeJob call.now job edited stored) := by
  rw [flushJob, if_neg hne] at h
  obtain ⟨stored, hget, rfl⟩ := Option.map_eq_some_iff.mp h
  exact ⟨stored, hget, rfl, _, rfl, rfl, rfl⟩

theorem createCronJobFrom_noted {body : CronJobCreate} {s : Schedule}
    (hs : body.scheduleExpression = s.text) (h : createCronJobFrom call body db = some db') :
    ∃ row, Noted db db' db.cronJobs.nextId [] row := by
  rw [createCronJobFrom, hs, applySchedule_text] at h
  obtain rfl := Option.some.inj h
  exact ⟨_, rfl, _, rfl, rfl, rfl⟩

theorem updateCronJobFrom_noted {body : CronJobUpdate} (hbody : Texts body)
    (h : updateCronJobFrom call id body job db = some db') :
    editCronJob body job = .ok (job, []) ∧ db' = db ∨
    ∃ edited changes stored, editCronJob body job = .ok (edited, changes) ∧
      db.cronJobs.get? id = some stored ∧
      Noted db db' id changes (writeJob call.now job edited stored) := by
  unfold updateCronJobFrom at h
  split at h
  · cases h
  · rename_i edited changes hedit
    split_ifs at h with hnil
    · obtain rfl := (editCronJob_ok hbody hedit).2.2.2.2 hnil
      rw [hnil] at hedit
      exact .inl ⟨hedit, (Option.some.inj h).symm⟩
    · obtain ⟨flushed, hflush, h⟩ := Option.bind_eq_some_iff.mp h
      obtain rfl := Option.some.inj h
      obtain ⟨ds, hds, hfields, happlies⟩ := editCronJob_diffs hbody hedit
      have hne : edited ≠ job := by
        rintro rfl
        obtain ⟨d, hd⟩ := List.exists_mem_of_ne_nil ds fun hds' ↦ hnil (by rw [hds, hds']; rfl)
        obtain ⟨hbefore, hafter, hchanged⟩ := (happlies.values hfields).1 d hd
        exact hchanged (hafter.symm.trans hbefore)
      obtain ⟨stored, hget, hnoted⟩ := noted_of_flush hne hflush .updated changes .cronJobUpdated _
      exact .inr ⟨edited, changes, stored, hedit, hget, hnoted⟩

theorem updateCronJobStatusFrom_noted {isActive : Bool}
    (h : updateCronJobStatusFrom call id isActive job db = some db') :
    db' = db ∨ ∃ stored, db.cronJobs.get? id = some stored ∧
      Noted db db' id [] (writeJob call.now job { job with isActive } stored) := by
  unfold updateCronJobStatusFrom at h
  by_cases hsame : job.isActive = isActive
  · rw [if_pos hsame] at h
    exact .inl (Option.some.inj h).symm
  · rw [if_neg hsame] at h
    obtain ⟨flushed, hflush, h⟩ := Option.bind_eq_some_iff.mp h
    obtain rfl := Option.some.inj h
    have hne : { job with isActive } ≠ job :=
      fun heq ↦ hsame (congrArg Data.Records.CronJob.isActive heq).symm
    exact .inr (noted_of_flush hne hflush _ [] _ _)

theorem deleteCronJobFrom_noted (hlive : job.isDeleted = false)
    (h : deleteCronJobFrom call id job db = some db') :
    ∃ stored, db.cronJobs.get? id = some stored ∧ Noted db db' id []
      (writeJob call.now job { job with isDeleted := true, isActive := false } stored) := by
  obtain ⟨flushed, hflush, h⟩ := Option.bind_eq_some_iff.mp h
  obtain rfl := Option.some.inj h
  have hne : { job with isDeleted := true, isActive := false } ≠ job := by
    intro heq
    have hgone := congrArg Data.Records.CronJob.isDeleted heq
    rw [hlive] at hgone
    cases hgone
  exact noted_of_flush hne hflush _ [] _ _

theorem createScriptFrom_unnoted {body : ScriptCreate} {path : Execution.Policy.Path}
    (h : createScriptFrom call body path db = some db') :
    db'.cronJobs = db.cronJobs ∧ db'.cronJobHistory = db.cronJobHistory := by
  unfold createScriptFrom at h
  dsimp only at h
  split_ifs at h
  obtain rfl := Option.some.inj h
  exact ⟨rfl, rfl⟩

theorem updateScriptFrom_unnoted {script edited : Script} {changes : List Change}
    (h : updateScriptFrom call id script edited changes db = some db') :
    db'.cronJobs = db.cronJobs ∧ db'.cronJobHistory = db.cronJobHistory := by
  unfold updateScriptFrom at h
  split_ifs at h with hnil
  · obtain rfl := Option.some.inj h
    exact ⟨rfl, rfl⟩
  · obtain ⟨flushed, hflush, h⟩ := Option.bind_eq_some_iff.mp h
    obtain rfl := Option.some.inj h
    have hrecord := recordScriptUpdate_unrecorded call id script edited changes flushed
    rw [hrecord.cronJobs, hrecord.history]
    unfold flushScript at hflush
    split at hflush
    · split_ifs at hflush
      obtain rfl := Option.some.inj hflush
      exact ⟨rfl, rfl⟩
    · dsimp only at hflush
      split_ifs at hflush
      all_goals
        obtain rfl := Option.some.inj hflush
        exact ⟨rfl, rfl⟩

theorem deleteScriptFrom_unnoted {script : Script}
    (h : deleteScriptFrom call id script db = some db') :
    db'.cronJobs = db.cronJobs ∧ db'.cronJobHistory = db.cronJobHistory := by
  obtain ⟨stored, -, rfl⟩ := Option.map_eq_some_iff.mp h
  exact ⟨rfl, rfl⟩

theorem Retracing.commit {s : Ledger} {op : Operation} {stage : Stage} (h : Retracing s)
    (hknown : Known (fun job ↦ job.isDeleted = false) stage.progress)
    (hfinds : FindsColumns s op stage) (hcommit : stage.commit s.db = some db') :
    Retracing (follow s db') := by
  have hempty : Recordable [] := ⟨List.nodup_nil, fun _ h ↦ by cases h⟩
  obtain ⟨call, progress⟩ := stage
  cases progress with
  | accepted request => cases hcommit
  | loaded request => cases hcommit
  | ready request =>
    cases request with
    | createCronJob body =>
      obtain ⟨t, ht⟩ := hknown
      obtain ⟨row, hnoted⟩ := createCronJobFrom_noted ht hcommit
      refine h.noted hnoted (fun _ ↦ rfl) fun stored hstored ↦ ?_
      rw [Table.get?_nextId] at hstored
      cases hstored
    | updateCronJob id body job =>
      obtain ⟨-, rfl⟩ | ⟨edited, changes, stored, hedit, hget, hnoted⟩ :=
        updateCronJobFrom_noted hknown.1 hcommit
      · exact h.kept rfl rfl
      · obtain ⟨ds, rfl, hfields, happlies⟩ := editCronJob_diffs hknown.1 hedit
        refine h.noted hnoted (fun hnone ↦ absurd (hget.symm.trans hnone) (by simp)) ?_
        intro stored' hstored'
        obtain rfl := Option.some.inj (hget.symm.trans hstored')
        exact ⟨ds, rfl, editCronJob_recordable hedit,
          applies_writeJob call.now hfields happlies (hfinds edited _ stored hedit hget)⟩
    | updateCronJobStatus id isActive job =>
      obtain rfl | ⟨stored, hget, hnoted⟩ := updateCronJobStatusFrom_noted hcommit
      · exact h.kept rfl rfl
      · refine h.noted hnoted (fun _ ↦ rfl) fun stored' hstored' ↦ ?_
        obtain rfl := Option.some.inj (hget.symm.trans hstored')
        refine ⟨[], rfl, hempty, columns_writeJob_kept call.now ?_⟩
        funext column
        cases column <;> rfl
    | deleteCronJob id job =>
      obtain ⟨stored, hget, hnoted⟩ := deleteCronJobFrom_noted hknown hcommit
      refine h.noted hnoted (fun _ ↦ rfl) fun stored' hstored' ↦ ?_
      obtain rfl := Option.some.inj (hget.symm.trans hstored')
      refine ⟨[], rfl, hempty, columns_writeJob_kept call.now ?_⟩
      funext column
      cases column <;> rfl
    | createScript body path =>
      obtain ⟨hjobs, hhistory⟩ := createScriptFrom_unnoted hcommit
      exact h.kept hjobs hhistory
    | updateScript id script edited changes =>
      obtain ⟨hjobs, hhistory⟩ := updateScriptFrom_unnoted hcommit
      exact h.kept hjobs hhistory
    | deleteScript id script =>
      obtain ⟨hjobs, hhistory⟩ := deleteScriptFrom_unnoted hcommit
      exact h.kept hjobs hhistory

/-- An update that overwrites what another has written records a change that was never made. -/
theorem Retracing.misleads {s : Ledger} {op : Operation} {body : CronJobUpdate} (h : Retracing s)
    (hbody : Texts body)
    (hfinds : ¬FindsColumns s op ⟨call, .ready (.updateCronJob id body job)⟩) :
    ∃ db', updateCronJobFrom call id body job s.db = some db' ∧ ¬Retraced (follow s db') := by
  simp only [FindsColumns, not_forall] at hfinds
  obtain ⟨edited, changes, stored, hedit, hget, column, hchanged, hstored⟩ := hfinds
  have hne : edited ≠ job := fun heq ↦ hchanged (congrFun (congrArg columns heq) column)
  obtain ⟨db', hcommit, -⟩ : ∃ db', updateCronJobFrom call id body job s.db = some db' ∧ _ ∧ _ :=
    updateCronJobFrom_writes hbody hedit hne hget
  refine ⟨db', hcommit, fun hback ↦ hstored ?_⟩
  obtain ⟨hsame, -⟩ | ⟨edited', changes', stored', hedit', hget', hnoted⟩ :=
    updateCronJobFrom_noted hbody hcommit
  · exact absurd (Prod.mk.inj (Except.ok.inj (hedit.symm.trans hsame))).1 hne
  · obtain rfl := Option.some.inj (hget.symm.trans hget')
    obtain ⟨rfl, rfl⟩ := Prod.mk.inj (Except.ok.inj (hedit.symm.trans hedit'))
    obtain ⟨ds, rfl, hfields, happlies⟩ := editCronJob_diffs hbody hedit
    obtain ⟨⟨entry, hchanges, hhistory⟩, -⟩ := hnoted.historyOf
    obtain ⟨created, hcreated, hbefore⟩ := h.retraced id stored hget
    have hrow : (follow s db').db.cronJobs.get? id =
        some (writeJob call.now job edited stored) := by
      rw [follow, hnoted.cronJobs, Table.get?_set_self]
    obtain ⟨created', hcreated', hafter⟩ := hback id _ hrow
    rw [follow_created, hcreated, Option.some_or] at hcreated'
    obtain rfl := Option.some.inj hcreated'
    change LeadsBack created _ (historyOf db' id) at hafter
    rw [hhistory] at hafter
    have hkeeps := keeps_of_recordable hchanges (editCronJob_recordable hedit)
    obtain ⟨hvalues, hothers⟩ := (hbefore.last hafter hkeeps).values hfields
    have hfield : column ∈ ds.map Diff.field :=
      by_contra fun hout ↦ hchanged ((happlies.values hfields).2 column hout)
    obtain ⟨d, hd, rfl⟩ := List.mem_map.mp hfield
    exact (hvalues d hd).1.trans ((happlies.values hfields).1 d hd).1.symm

theorem Retracing.blank (h : Blank db) : Retracing ⟨db, fun _ ↦ none⟩ := by
  constructor
  · intro id row hrow
    change db.cronJobs.get? id = some row at hrow
    rw [h.cronJobs, Table.get?_empty] at hrow
    cases hrow
  · intro id _
    refine ⟨rfl, ?_⟩
    unfold historyOf
    rw [h.history]
    rfl

end

/-- From a panel without jobs, and whatever the order of their steps, requests leave every job with
a history that leads back to the job as it was created exactly when each update finds the columns
that it changes as it has read them. -/
theorem history_leads_back_iff {db : Database} (hblank : Blank db)
    (actions : List (Action Operation)) :
    Always ledgerHandler.step (fun w ↦ Retraced w.store) (begin ⟨db, fun _ ↦ none⟩) actions ↔
      Guarded ledgerHandler.step (ledgerHandler.Committing FindsColumns)
        (begin ⟨db, fun _ ↦ none⟩) actions := by
  have hlive : ∀ db : Database, True → ∀ id job, db.liveJob id = some job →
      job.isDeleted = false := fun _ _ _ _ hjob ↦ (Database.liveJob_eq_some.mp hjob).2
  have hknows : handler.Knows (fun _ ↦ True) (fun _ _ _ ↦ True) fun _ _ stage ↦
      Known (fun job ↦ job.isDeleted = false) stage.progress := handler_knows hlive
  refine Handler.always_iff_committing (I := Retracing) (fun _ h ↦ h.retraced)
    (hknows.beside (fun _ _ ↦ trivial) (fun _ _ _ _ ↦ trivial) fun _ _ ↦ rfl) ?_ ?_
    (Retracing.blank hblank) actions
  · intro s op stage s' hs hknown _ hfinds hcommit
    obtain ⟨db', hdb', rfl⟩ := Option.map_eq_some_iff.mp hcommit
    exact hs.commit hknown hfinds hdb'
  · intro s op stage hs hknown _ hfinds
    obtain ⟨call, progress⟩ := stage
    cases progress with
    | accepted request => exact absurd trivial hfinds
    | loaded request => exact absurd trivial hfinds
    | ready request =>
      cases request with
      | updateCronJob id body job =>
        obtain ⟨db', hcommit, hnot⟩ := hs.misleads hknown.1 hfinds
        exact ⟨follow s db', Option.map_eq_some_iff.mpr ⟨db', hcommit, rfl⟩, hnot⟩
      | createCronJob body => exact absurd trivial hfinds
      | updateCronJobStatus id isActive job => exact absurd trivial hfinds
      | deleteCronJob id job => exact absurd trivial hfinds
      | createScript body path => exact absurd trivial hfinds
      | updateScript id script edited changes => exact absurd trivial hfinds
      | deleteScript id script => exact absurd trivial hfinds

section Sample

/-- Two requests rename a job at the same time, each from the name that both have read. -/
def overwriting : List (Action Operation) :=
  [.send (.createCronJob sampleSender
      { name := "nightly".toList, command := "backup".toList
        scheduleExpression := "0 9 * * *".toList }), .read 1, .commit 1,
    .send (.updateCronJob sampleSender 1 { name := some "morning".toList }), .read 1, .read 1,
    .send (.updateCronJob sampleSender 1 { name := some "evening".toList }), .read 2, .read 2,
    .commit 1, .commit 2]

theorem history_leads_back_iff_overwriting :
    ((exec ledgerHandler.step (begin ⟨samplePanel, fun _ ↦ none⟩) overwriting).bind fun w ↦
        (w.store.db.cronJobs.get? 1).map fun job ↦
          (job.name, (historyOf w.store.db 1).map CronJobHistory.action)) =
      some ("evening".toList, [.created, .updated, .updated]) ∧
    (Always ledgerHandler.step (fun w ↦ Retraced w.store) (begin ⟨samplePanel, fun _ ↦ none⟩)
        overwriting ↔
      Guarded ledgerHandler.step (ledgerHandler.Committing FindsColumns)
        (begin ⟨samplePanel, fun _ ↦ none⟩) overwriting) :=
  ⟨by decide +kernel, history_leads_back_iff ⟨rfl, rfl, rfl⟩ overwriting⟩

end Sample

end CronPanel.Access.Replay
