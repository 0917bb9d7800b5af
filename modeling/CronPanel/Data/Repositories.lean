import CronPanel.Library.Tables
import CronPanel.Data.Records

namespace CronPanel.Data.Repositories

open Library.Strings Library.Tables Core.Permissions Records

structure CronJobFilter where
  ownerId : Option ℕ := none
  isActive : Option Bool := none
  name : Option Text := none
  schedule : Option Text := none
  limit : ℤ := 100
  offset : ℤ := 0

/-- The operator `LIKE` without an escape character. -/
def like : Text → Text → Bool
  | [], t => t.isEmpty
  | '%' :: pattern, t => t.tails.any (like pattern)
  | c :: pattern, d :: t => (c = '_' || c = d) && like pattern t
  | _ :: _, [] => false

/-- `ilike`, which compares the ASCII letters without their case. -/
def ilike (pattern t : Text) : Bool := like (pattern.map Char.toLower) (t.map Char.toLower)

/-- The conditions of `list_jobs`; an empty text is no condition. -/
def CronJobFilter.accepts (filters : CronJobFilter) (job : CronJob) : Bool :=
  !job.isDeleted && filters.ownerId.all (· == job.ownerId) &&
    filters.isActive.all (· == job.isActive) &&
    filters.name.all (fun name ↦ name.isEmpty || ilike ('%' :: name ++ ['%']) job.name) &&
    filters.schedule.all (fun schedule ↦ schedule.isEmpty || schedule == job.scheduleExpression)

/-- The clamped `LIMIT` and `OFFSET` of the listings. -/
def page {α : Type} (limit offset : ℤ) (rows : List α) : List α :=
  (rows.drop (max 0 offset).toNat).take (max 1 (min limit 500)).toNat

/-- The tables; the rows of `roles` are the names seeded in it. -/
structure Database where
  roles : List Role
  users : Table ℕ User
  cronJobs : Table ℕ CronJob
  cronJobHistory : Table ℕ CronJobHistory
  scripts : Table ℕ Script
  executions : Table ℕ Execution
  auditLogs : Table ℕ AuditLog
  revokedTokens : Table ℕ RevokedToken

namespace Database

def seeded : Database :=
  ⟨[.admin, .operator, .viewer], .empty, .empty, .empty, .empty, .empty, .empty, .empty⟩

variable (db : Database)

/-- `CronJobRepository.get_by_id`. -/
def liveJob (id : ℕ) : Option CronJob := (db.cronJobs.get? id).filter (fun job ↦ !job.isDeleted)

/-- `ScriptRepository.get_by_id`. -/
def liveScript (id : ℕ) : Option Script :=
  (db.scripts.get? id).filter (fun script ↦ !script.isDeleted)

def scriptByName (name : Text) : Option (ℕ × Script) :=
  db.scripts.rows.find? (fun r ↦ r.2.name = name)

def isReferencedByActiveJob (scriptId : ℕ) : Bool :=
  db.cronJobs.rows.any fun r ↦ r.2.scriptId = some scriptId ∧ !r.2.isDeleted

/-- The `WHERE` clause of `list_eligible_for_scheduling` for a row of the join. -/
def eligible (job : CronJob) : Bool :=
  !job.isDeleted && job.isActive &&
    (job.scriptId.bind db.scripts.get?).any fun script ↦ !script.isDeleted && script.isEnabled

def listEligibleForScheduling : List (ℕ × CronJob) :=
  db.cronJobs.rows.filter fun r ↦ db.eligible r.2

/-- `CronJobRepository.list_jobs`: the newest jobs come first. -/
def listJobs (filters : CronJobFilter) : List (ℕ × CronJob) :=
  ((db.cronJobs.rows.filter fun r ↦ filters.accepts r.2).reverse.drop (max 0 filters.offset).toNat).take
    (max 1 (min filters.limit 500)).toNat

def hasRunningExecution (cronJobId : ℕ) : Bool :=
  db.executions.rows.any fun r ↦ r.2.cronJobId = some cronJobId ∧ r.2.status = .running

def latestForJob (cronJobId : ℕ) : Option Execution :=
  (db.executions.rows.filter fun r ↦ r.2.cronJobId = some cronJobId).getLast?.map Prod.snd

/-- `CronJobHistoryRepository.list_for_job`. -/
def listForJob (cronJobId : ℕ) (limit offset : ℤ) : List (ℕ × CronJobHistory) :=
  page limit offset (db.cronJobHistory.rows.filter fun r ↦ r.2.cronJobId = cronJobId)

/-- `ExecutionRepository.list_owned_job_ids`. -/
def listOwnedJobIds (ownerId : ℕ) : List ℕ :=
  (db.cronJobs.rows.filter fun r ↦ r.2.ownerId = ownerId).map Prod.fst

/-- `ExecutionRepository.list`: an empty status is no condition, and the newest come first. -/
def listExecutions (cronJobIds : Option (List ℕ)) (status : Option Text) (limit offset : ℤ) :
    List (ℕ × Execution) :=
  page limit offset (db.executions.rows.filter fun r ↦
    cronJobIds.all (fun ids ↦ r.2.cronJobId.any ids.contains) &&
      status.all (fun status ↦ status.isEmpty || status == r.2.status.name)).reverse

def userByUsername (username : Text) : Option (ℕ × User) :=
  db.users.rows.find? (fun r ↦ r.2.username = username)

def userByEmail (email : Text) : Option (ℕ × User) :=
  db.users.rows.find? (fun r ↦ r.2.email = email)

def countActiveAdmins : ℕ := (db.users.rows.filter fun r ↦ r.2.isActive ∧ r.2.role = .admin).length

def isRevoked (jti : Text) : Bool := db.revokedTokens.rows.any fun r ↦ r.2.jti = jti

def purgeExpired (now : Instant) : Database :=
  { db with revokedTokens := db.revokedTokens.filter fun token ↦ !decide (token.expiresAt < now) }

variable {db}

theorem liveJob_eq_some {id : ℕ} {job : CronJob} :
    db.liveJob id = some job ↔ db.cronJobs.get? id = some job ∧ job.isDeleted = false := by
  simp only [liveJob, Option.filter_eq_some_iff, Bool.not_eq_true']

theorem liveScript_eq_some {id : ℕ} {script : Script} :
    db.liveScript id = some script ↔ db.scripts.get? id = some script ∧
      script.isDeleted = false := by
  simp only [liveScript, Option.filter_eq_some_iff, Bool.not_eq_true']

theorem mem_listEligible {id : ℕ} {job : CronJob} :
    (id, job) ∈ db.listEligibleForScheduling ↔ db.cronJobs.get? id = some job ∧
      db.eligible job := by
  simp only [listEligibleForScheduling, List.mem_filter, Table.mem_rows]

theorem hasRunningExecution_iff {id : ℕ} :
    db.hasRunningExecution id ↔ ∃ k e, db.executions.get? k = some e ∧ e.cronJobId = some id ∧
      e.status = .running := by
  simp only [hasRunningExecution, List.any_eq_true, Prod.exists, Table.mem_rows, decide_eq_true_eq]

theorem isRevoked_iff {jti : Text} :
    db.isRevoked jti ↔ ∃ k r, db.revokedTokens.get? k = some r ∧ r.jti = jti := by
  simp only [isRevoked, List.any_eq_true, Prod.exists, Table.mem_rows, decide_eq_true_eq]

end Database

end CronPanel.Data.Repositories
