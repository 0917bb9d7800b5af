import CronPanel.Access.Interleaved

namespace CronPanel.Access.Drift

open Library.Strings Library.Tables Library.Fallible Library.Run Library.Sessions Library.WriteBack
open Data.Records Data.Repositories Data.Repositories.Database Cron.Validator Cron.Elements
open Cron.Grammar Schemas.Bodies Services.CronJobs Services.Columns Services.RowSnapshots
open Api.Operations Api.Stages Scheduler.Eligibility Columns Interleaved

/-- The column of a job for a field of its expression. -/
def fieldColumn (job : CronJob) : Field → Text
  | .minute => job.minute
  | .hour => job.hour
  | .dayOfMonth => job.dayOfMonth
  | .month => job.month
  | .dayOfWeek => job.dayOfWeek

/-- An edit of the schedule that keeps a field as it was read finds that field as it was read. -/
def KeepsPace (db : Database) (_ : Operation) (stage : Stage) : Prop :=
  match stage.progress with
  | .ready (.updateCronJob id body job) =>
    ∀ edited changes stored, editCronJob body job = .ok (edited, changes) →
      db.cronJobs.get? id = some stored → edited.scheduleExpression ≠ job.scheduleExpression →
      ∀ field, fieldColumn edited field = fieldColumn job field →
        fieldColumn stored field = fieldColumn job field
  | _ => True

section

variable {job stored edited : CronJob} {s : Schedule}

theorem derivedColumns_eq (job : CronJob) :
    derivedColumns job = Field.names.map (fieldColumn job) := rfl

theorem derivedColumns_eq_iff :
    derivedColumns job = derivedColumns stored ↔
      ∀ field, fieldColumn job field = fieldColumn stored field := by
  rw [derivedColumns_eq, derivedColumns_eq, List.map_inj_left]
  refine forall_congr' fun field ↦ forall_prop_of_true ?_
  cases field <;> decide

theorem fieldColumn_writeJob (now : Instant) (field : Field) :
    fieldColumn (writeJob now job edited stored) field =
      writeColumn (fieldColumn job field) (fieldColumn edited field)
        (fieldColumn stored field) := by
  cases field <;> rfl

/-- A row that has the expression of a schedule is in sync when it has its columns too. -/
theorem derived_iff_columns (job : CronJob) (hexpression : stored.scheduleExpression = s.text) :
    Derived stored ↔ derivedColumns stored = derivedColumns (withSchedule job s) := by
  constructor
  · intro h
    have hparsed := h.parsed
    rw [hexpression, parse_text] at hparsed
    exact (Except.ok.inj hparsed).symm
  · intro h
    exact (derived_withSchedule job s).congr hexpression h

/-- The row that an edit of the schedule writes is in sync exactly when the fields that the edit
keeps are still those that were read. -/
theorem derived_writeJob_iff (now : Instant) (hne : s.text ≠ job.scheduleExpression)
    (hedited : edited = withSchedule edited s) :
    Derived (writeJob now job edited stored) ↔
      ∀ field, fieldColumn edited field = fieldColumn job field →
        fieldColumn stored field = fieldColumn job field := by
  have htext : edited.scheduleExpression = s.text := by
    rw [hedited]
    rfl
  have hexpression : (writeJob now job edited stored).scheduleExpression = s.text := by
    rw [← htext]
    exact writeColumn_ne (htext ▸ hne)
  rw [derived_iff_columns edited hexpression, ← hedited, derivedColumns_eq_iff]
  refine forall_congr' fun field ↦ ?_
  rw [fieldColumn_writeJob, writeColumn_eq_edited]
  refine forall_congr' fun hsame ↦ ?_
  rw [hsame]

/-- A row written without a change to the schedule keeps its columns. -/
theorem derived_writeJob_kept (now : Instant) (hstored : Derived stored)
    (hexpression : edited.scheduleExpression = job.scheduleExpression)
    (hcolumns : derivedColumns edited = derivedColumns job) :
    Derived (writeJob now job edited stored) := by
  refine hstored.congr ?_ ?_
  · rw [writeJob, hexpression, writeColumn_same]
  · rw [derivedColumns_eq_iff] at hcolumns ⊢
    intro field
    rw [fieldColumn_writeJob, hcolumns field, writeColumn_same]

end

section

variable {db db' : Database} {call : Call} {id : ℕ} {body : CronJobUpdate} {job : CronJob}

theorem derived_of_flushed {now : Instant} {edited : CronJob} (h : Flushed now id job edited db db')
    (hdb : AllDerived db) (hwritten : ∀ stored, edited ≠ job → db.cronJobs.get? id = some stored →
      Derived (writeJob now job edited stored)) : AllDerived db' := by
  rcases h.cronJobs with ⟨-, hsame⟩ | ⟨hne, stored, hget, hset⟩
  · exact hdb.of_eq hsame
  · exact hdb.set hset (hwritten stored hne hget)

theorem updateCronJobFrom_derived {op : Operation} (hdb : AllDerived db) (hbody : Texts body)
    (hpace : KeepsPace db op ⟨call, .ready (.updateCronJob id body job)⟩)
    (h : updateCronJobFrom call id body job db = some db') : AllDerived db' := by
  obtain ⟨edited, changes, hedit, hflushed⟩ := updateCronJobFrom_some hbody h
  refine derived_of_flushed hflushed hdb ?_
  intro stored _ hget
  rcases editCronJob_edited hbody hedit with ⟨-, hrow⟩ | ⟨s, -, hne, hrow⟩
  · refine derived_writeJob_kept call.now (hdb id stored hget) ?_ ?_ <;> rw [hrow] <;> rfl
  · have hself : edited = withSchedule edited s := by rw [hrow]; rfl
    have hexpression : edited.scheduleExpression ≠ job.scheduleExpression := by
      rw [hrow]
      exact hne
    rw [derived_writeJob_iff call.now hne hself]
    exact hpace edited changes stored hedit hget hexpression

/-- An edit that loses pace leaves a row whose columns are not those of its expression. -/
theorem updateCronJobFrom_drifts {op : Operation} (hbody : Texts body)
    (hpace : ¬KeepsPace db op ⟨call, .ready (.updateCronJob id body job)⟩) :
    ∃ db', updateCronJobFrom call id body job db = some db' ∧ ¬AllDerived db' := by
  simp only [KeepsPace, not_forall] at hpace
  obtain ⟨edited, changes, stored, hedit, hget, hexpression, field, hkept, hstored⟩ := hpace
  have hne : edited ≠ job :=
    fun heq ↦ hexpression (congrArg Data.Records.CronJob.scheduleExpression heq)
  obtain ⟨s, hs, hself⟩ : ∃ s : Schedule, s.text ≠ job.scheduleExpression ∧
      edited = withSchedule edited s := by
    rcases editCronJob_edited hbody hedit with ⟨-, hrow⟩ | ⟨s, -, hs, hrow⟩
    · rw [hrow] at hexpression
      exact absurd rfl hexpression
    · exact ⟨s, hs, by rw [hrow]; rfl⟩
  obtain ⟨db', hcommit, -, hset⟩ := updateCronJobFrom_writes hbody hedit hne hget
  refine ⟨db', hcommit, fun hall ↦ ?_⟩
  have hrow := hall id _ (by rw [hset, Table.get?_set_self])
  exact hstored ((derived_writeJob_iff call.now hs hself).mp hrow field hkept)

theorem commit_derived {op : Operation} {stage : Stage} (hdb : AllDerived db)
    (hknown : Known Derived stage.progress) (hpace : KeepsPace db op stage)
    (h : stage.commit db = some db') : AllDerived db' := by
  obtain ⟨call, progress⟩ := stage
  cases progress with
  | accepted request => cases h
  | loaded request => cases h
  | ready request =>
    cases request with
    | createCronJob body =>
      obtain ⟨s, hs⟩ := hknown
      obtain ⟨row, created, hcreated, -, hset, -⟩ := createCronJobFrom_some call db hs
      obtain rfl := Option.some.inj (hcreated.symm.trans h)
      exact hdb.set hset (derived_withSchedule row s)
    | updateCronJob id body job => exact updateCronJobFrom_derived hdb hknown.1 hpace h
    | updateCronJobStatus id isActive job =>
      refine derived_of_flushed (updateCronJobStatusFrom_some h) hdb fun stored _ hget ↦ ?_
      exact derived_writeJob_kept call.now (hdb id stored hget) rfl rfl
    | deleteCronJob id job =>
      refine derived_of_flushed (deleteCronJobFrom_some h) hdb fun stored _ hget ↦ ?_
      exact derived_writeJob_kept call.now (hdb id stored hget) rfl rfl
    | createScript body path => exact hdb.of_eq (createScriptFrom_some h).1
    | updateScript id script edited changes => exact hdb.of_eq (updateScriptFrom_some hknown h).1
    | deleteScript id script => exact hdb.of_eq (deleteScriptFrom_some hknown h).1

end

/-- Whatever the order of their steps, requests leave the columns of every job in sync with its
expression exactly when no edit of a schedule commits after another has changed, since it read the
job, a field that it keeps as it read it. -/
theorem columns_in_sync_iff {db : Database} (hdb : AllDerived db)
    (actions : List (Action Operation)) :
    Always handler.step (fun w ↦ AllDerived w.store) (begin db) actions ↔
      Guarded handler.step (handler.Committing KeepsPace) (begin db) actions := by
  refine Handler.always_iff_committing (fun _ h ↦ h)
    (Q := fun _ _ stage ↦ Known Derived stage.progress)
    (handler_knows fun db hdb id job hjob ↦ hdb id job (liveJob_eq_some.mp hjob).1) ?_ ?_
    hdb actions
  · intro db op stage db' hdb hknown _ hpace h
    exact commit_derived hdb hknown hpace h
  · intro db op stage hdb hknown _ hpace
    obtain ⟨call, progress⟩ := stage
    cases progress with
    | accepted request => exact absurd trivial hpace
    | loaded request => exact absurd trivial hpace
    | ready request =>
      cases request with
      | updateCronJob id body job => exact updateCronJobFrom_drifts hknown.1 hpace
      | createCronJob body => exact absurd trivial hpace
      | updateCronJobStatus id isActive job => exact absurd trivial hpace
      | deleteCronJob id job => exact absurd trivial hpace
      | createScript body path => exact absurd trivial hpace
      | updateScript id script edited changes => exact absurd trivial hpace
      | deleteScript id script => exact absurd trivial hpace

section Sample

/-- Two edits of one job cross: the one moves the hour, the other the minute. -/
def crossing : List (Action Operation) :=
  [.send (.updateCronJob ⟨1, 5, none⟩ 1 { scheduleExpression := some "0 10 * * *".toList }),
    .send (.updateCronJob ⟨1, 6, none⟩ 1 { scheduleExpression := some "30 9 * * *".toList }),
    .read 1, .read 1, .read 2, .read 2, .commit 1, .commit 2]

theorem columns_in_sync_iff_crossing :
    ((exec handler.step (begin sample) crossing).bind fun w ↦
        (w.store.cronJobs.get? 1).map fun job ↦ (job.scheduleExpression, job.minute, job.hour)) =
      some ("30 9 * * *".toList, "30".toList, "10".toList) ∧
    (Always handler.step (fun w ↦ AllDerived w.store) (begin sample) crossing ↔
      Guarded handler.step (handler.Committing KeepsPace) (begin sample) crossing) :=
  ⟨by decide +kernel, columns_in_sync_iff sample_allDerived crossing⟩

end Sample

end CronPanel.Access.Drift
