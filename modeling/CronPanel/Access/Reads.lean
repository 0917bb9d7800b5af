import CronPanel.Scheduler.Eligibility
import CronPanel.Services.Executions

namespace CronPanel.Access.Reads

open Library.Strings Library.Tables
open Core.Permissions Data.Records Data.Repositories Services.CronJobs Services.Executions

/-- What belongs to a user, soft-deleted jobs included. -/
structure View where
  user : Option User
  scripts : Table ℕ Script
  cronJobs : Table ℕ CronJob
  cronJobHistory : Table ℕ CronJobHistory
  executions : Table ℕ Execution

def owns (actor : Actor) (db : Database) (id : ℕ) : Bool :=
  (db.cronJobs.get? id).any fun job ↦ job.ownerId == actor.id

def view (actor : Actor) (db : Database) : View where
  user := db.users.get? actor.id
  scripts := db.scripts
  cronJobs := db.cronJobs.filter fun job ↦ job.ownerId == actor.id
  cronJobHistory := db.cronJobHistory.filter fun entry ↦ owns actor db entry.cronJobId
  executions := db.executions.filter fun execution ↦ execution.cronJobId.any (owns actor db)

variable {actor : Actor} {db db' : Database}

theorem rows_filter {κ α : Type} [LinearOrder κ] (t : Table κ α) (p : α → Bool) :
    (t.filter p).rows = t.rows.filter fun r ↦ p r.2 := rfl

theorem owns_view (db : Database) (id : ℕ) :
    owns actor db id = ((view actor db).cronJobs.get? id).isSome := by
  simp only [owns, view, Table.get?_filter]
  cases db.cronJobs.get? id with
  | none => rfl
  | some job => by_cases h : job.ownerId == actor.id <;> simp [h]

theorem listOwnedJobIds_view (db : Database) :
    db.listOwnedJobIds actor.id = (view actor db).cronJobs.rows.map Prod.fst := by
  simp only [Database.listOwnedJobIds, view, rows_filter, beq_eq_decide]

theorem contains_listOwnedJobIds (db : Database) (id : ℕ) :
    (db.listOwnedJobIds actor.id).contains id = owns actor db id := by
  rw [Bool.eq_iff_iff, List.contains_iff_mem, listOwnedJobIds_view, owns_view,
    Option.isSome_iff_exists]
  exact Table.mem_keys

theorem executions_view (db : Database) {p : Execution → Bool}
    (hp : ∀ execution, p execution → execution.cronJobId.any (owns actor db)) :
    db.executions.rows.filter (fun r ↦ p r.2) =
      (view actor db).executions.rows.filter fun r ↦ p r.2 := by
  rw [view, rows_filter, List.filter_filter]
  apply List.filter_congr
  intro r _
  cases h : p r.2 with
  | false => rfl
  | true => rw [hp r.2 h, Bool.and_self]

theorem history_view {id : ℕ} (h : owns actor db id) (limit offset : ℤ) :
    db.listForJob id limit offset =
      page limit offset ((view actor db).cronJobHistory.rows.filter fun r ↦
        r.2.cronJobId = id) := by
  rw [Database.listForJob, view, rows_filter, List.filter_filter]
  congr 1
  apply List.filter_congr
  intro r _
  by_cases hid : r.2.cronJobId = id
  · simp [hid, h]
  · simp [hid]

def hasStatus (status : Option Text) (execution : Execution) : Bool :=
  status.all fun status ↦ status.isEmpty || status == execution.status.name

theorem listExecutions_rows (db : Database) {ids : List ℕ} (hids : ∀ id ∈ ids, owns actor db id)
    (status : Option Text) (limit offset : ℤ) : db.listExecutions (some ids) status limit offset =
      page limit offset ((view actor db).executions.rows.filter fun r ↦
        r.2.cronJobId.any ids.contains && hasStatus status r.2).reverse := by
  have howned :
      ∀ execution : Execution, (execution.cronJobId.any ids.contains &&
      hasStatus status execution) →
      execution.cronJobId.any (owns actor db) := by
    intro execution h
    obtain ⟨hany, -⟩ := (Bool.and_eq_true _ _).mp h
    cases hid : execution.cronJobId with
    | none =>
      rw [hid] at hany
      cases hany
    | some id =>
      rw [hid] at hany
      exact hids id (List.contains_iff_mem.mp hany)
  rw [← executions_view db (p := fun execution ↦ execution.cronJobId.any ids.contains && hasStatus status execution)
    howned]
  rfl

section Restricted

variable (hrole : isFullAccessRole actor.user.role = false)

include hrole

theorem canManage_restricted (job : CronJob) : canManage job actor = (job.ownerId == actor.id) := by
  rw [canManage, hrole, Bool.or_false]

theorem canExecute_restricted (job : CronJob) :
    canExecute job actor = (job.ownerId == actor.id) := by
  rw [canExecute, hrole, Bool.or_false]

theorem getCronJob_view (db : Database) (id : ℕ) : getCronJob db id actor =
    (((view actor db).cronJobs.get? id).filter fun job ↦ !job.isDeleted).elim
      (.error .notFound) .ok := by
  simp only [getCronJob, getJobForRead, Database.liveJob, view, Table.get?_filter,
    canManage_restricted hrole]
  cases db.cronJobs.get? id with
  | none => rfl
  | some job =>
    cases hd : job.isDeleted <;> by_cases ho : job.ownerId == actor.id <;>
      simp [hd, ho, Option.filter, bind, Except.bind]

theorem listCronJobs_view (db : Database) (filters : CronJobFilter) :
    listCronJobs db actor filters = page filters.limit filters.offset
      ((view actor db).cronJobs.rows.filter fun r ↦
        { filters with ownerId := some actor.id }.accepts r.2).reverse := by
  have hrows :
      db.cronJobs.rows.filter (fun r ↦ { filters with ownerId := some actor.id }.accepts r.2) =
      (view actor db).cronJobs.rows.filter fun r ↦
        { filters with ownerId := some actor.id }.accepts r.2 := by
    rw [view, rows_filter, List.filter_filter]
    apply List.filter_congr
    intro r _
    simp only [CronJobFilter.accepts, Option.all_some, BEq.comm (a := actor.id)]
    cases r.2.ownerId == actor.id <;> simp
  rw [listCronJobs, hrole, if_neg Bool.false_ne_true, Database.listJobs, hrows]
  rfl

theorem listCronJobHistory_view (db : Database) (id : ℕ) (limit offset : ℤ) :
    listCronJobHistory db id actor limit offset =
      if ((view actor db).cronJobs.get? id).isSome then
        .ok (page limit offset ((view actor db).cronJobHistory.rows.filter fun r ↦ r.2.cronJobId = id))
      else .error .notFound := by
  rw [← owns_view]
  by_cases h : owns actor db id
  · rw [if_pos h, ← history_view h]
    unfold listCronJobHistory
    unfold owns at h
    cases hjob : db.cronJobs.get? id with
    | none => simp [hjob] at h
    | some job =>
      rw [hjob] at h
      simp only [canManage_restricted hrole]
      exact if_pos h
  · rw [if_neg h]
    unfold listCronJobHistory
    unfold owns at h
    cases hjob : db.cronJobs.get? id with
    | none => rfl
    | some job =>
      rw [hjob] at h
      simp only [canManage_restricted hrole]
      exact if_neg h

theorem listExecutions_view (db : Database) (jobId : Option ℕ) (status : Option Text)
    (limit offset : ℤ) :
    listExecutions db actor jobId status limit offset =
      let owned := (view actor db).cronJobs.rows.map Prod.fst
      let rows (ids : List ℕ) := page limit offset ((view actor db).executions.rows.filter fun r ↦
        r.2.cronJobId.any ids.contains && hasStatus status r.2).reverse
      match jobId with
      | some jobId => if owned.contains jobId then rows [jobId] else []
      | none => if owned.isEmpty then [] else rows owned := by
  have hmem : ∀ id ∈ db.listOwnedJobIds actor.id, owns actor db id := by
    intro id hid
    rw [← contains_listOwnedJobIds]
    exact List.contains_iff_mem.mpr hid
  rw [listExecutions, hrole, if_neg Bool.false_ne_true, ← listOwnedJobIds_view]
  cases jobId with
  | none =>
    dsimp only
    rw [listExecutions_rows db hmem]
  | some jobId =>
    dsimp only
    split_ifs with hc
    · refine listExecutions_rows db ?_ status limit offset
      intro id hid
      obtain rfl := List.mem_singleton.mp hid
      exact hmem id (List.contains_iff_mem.mp hc)
    · rfl

theorem getExecution_view (db : Database) (id : ℕ) : getExecution db id actor =
    ((view actor db).executions.get? id).elim (.error .notFound) .ok := by
  simp only [getExecution, view, Table.get?_filter, canExecute_restricted hrole]
  cases db.executions.get? id with
  | none => rfl
  | some execution =>
    cases hid : execution.cronJobId with
    | none => simp [hid, Option.filter]
    | some jobId =>
      simp only [Option.filter, hid, Option.any_some, Option.bind_some, owns]
      cases db.cronJobs.get? jobId with
      | none => rfl
      | some job => by_cases ho : job.ownerId == actor.id <;> simp [ho]

end Restricted

/-- A user without full access reads the same in two states that hold the same of what is his. -/
theorem reads_noninterference (hrole : isFullAccessRole actor.user.role = false)
    (hview : view actor db = view actor db') :
    (∀ id, getCronJob db id actor = getCronJob db' id actor) ∧
      (∀ filters, listCronJobs db actor filters = listCronJobs db' actor filters) ∧
      (∀ id limit offset,
        listCronJobHistory db id actor limit offset =
          listCronJobHistory db' id actor limit offset) ∧
      (∀ jobId status limit offset,
        listExecutions db actor jobId status limit offset =
          listExecutions db' actor jobId status limit offset) ∧
      ∀ id, getExecution db id actor = getExecution db' id actor := by
  refine ⟨?_, ?_, ?_, ?_, ?_⟩
  · intro id
    rw [getCronJob_view hrole, getCronJob_view hrole, hview]
  · intro filters
    rw [listCronJobs_view hrole, listCronJobs_view hrole, hview]
  · intro id limit offset
    rw [listCronJobHistory_view hrole, listCronJobHistory_view hrole, hview]
  · intro jobId status limit offset
    rw [listExecutions_view hrole, listExecutions_view hrole, hview]
  · intro id
    rw [getExecution_view hrole, getExecution_view hrole, hview]

/-- Another user's job is the difference between the two states. -/
theorem viewer_reads_own_jobs :
    let viewer : User := { Scheduler.Eligibility.sampleUser with role := .viewer }
    let db : Database := { Scheduler.Eligibility.sample with
      users := Scheduler.Eligibility.sample.users.set 2 viewer
      cronJobs := Scheduler.Eligibility.sample.cronJobs.set 2 { Scheduler.Eligibility.sampleJob with ownerId := 2 } }
    let db' : Database := { db with cronJobs := db.cronJobs.erase 1 }
    (∀ id, getCronJob db id ⟨2, viewer⟩ = getCronJob db' id ⟨2, viewer⟩) ∧
      (∀ filters, listCronJobs db ⟨2, viewer⟩ filters = listCronJobs db' ⟨2, viewer⟩ filters) ∧
      (∀ id limit offset, listCronJobHistory db id ⟨2, viewer⟩ limit offset =
        listCronJobHistory db' id ⟨2, viewer⟩ limit offset) ∧
      (∀ jobId status limit offset, listExecutions db ⟨2, viewer⟩ jobId status limit offset =
        listExecutions db' ⟨2, viewer⟩ jobId status limit offset) ∧
      ∀ id, getExecution db id ⟨2, viewer⟩ = getExecution db' id ⟨2, viewer⟩ :=
  reads_noninterference (by decide) rfl

end CronPanel.Access.Reads
