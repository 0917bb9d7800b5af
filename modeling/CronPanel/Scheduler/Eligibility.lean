import CronPanel.Api.Operations

namespace CronPanel.Scheduler.Eligibility

open Library.Strings Library.Tables Library.Fallible Data.Records Data.Repositories Data.Repositories.Database
open Cron.Validator Cron.Elements Cron.Grammar Schemas.Bodies Services.CronJobs Services.Scripts
open Api.Errors Api.CronJobs Api.Operations

/-- What the operations keep of the tables: each stored expression is the text of a schedule,
and a reference to a script is one to a row. -/
structure WellFormed (db : Database) : Prop where
  expression : ∀ id job, db.cronJobs.get? id = some job →
    ∃ s : Schedule, job.scheduleExpression = s.text
  reference : ∀ id job k, db.cronJobs.get? id = some job → job.scriptId = some k →
    ∃ script, db.scripts.get? k = some script

/-- The expression of a job that is eligible for scheduling. -/
def wanted (db : Database) (id : ℕ) : Option Text :=
  ((db.cronJobs.get? id).filter db.eligible).map CronJob.scheduleExpression

section

variable {db db' : Database} {id : ℕ}

theorem wanted_eq_some {x : Text} :
    wanted db id = some x ↔
      ∃ job, db.cronJobs.get? id = some job ∧ db.eligible job ∧ job.scheduleExpression = x := by
  simp only [wanted, Option.map_eq_some_iff, Option.filter_eq_some_iff, and_assoc]

theorem wanted_of_get? {job : CronJob} (h : db.cronJobs.get? id = some job) :
    wanted db id = if db.eligible job then some job.scheduleExpression else none := by
  rw [wanted, h, Option.filter_some]
  split_ifs <;> rfl

theorem wanted_schedule (hw : WellFormed db) {x : Text} (h : wanted db id = some x) :
    ∃ s : Schedule, x = s.text := by
  obtain ⟨job, hjob, -, rfl⟩ := wanted_eq_some.mp h
  exact hw.expression id job hjob

theorem eligible_iff {job : CronJob} :
    db.eligible job ↔ job.isDeleted = false ∧ job.isActive ∧
      ∃ k script, job.scriptId = some k ∧ db.scripts.get? k = some script ∧
        script.isDeleted = false ∧ script.isEnabled := by
  simp only [eligible, Bool.and_eq_true, Bool.not_eq_true', Option.any_eq_true,
    Option.bind_eq_some_iff, and_assoc]
  constructor
  · intro hx
    obtain ⟨hd, ha, script, ⟨k, hk, hs⟩, hdel, hen⟩ := hx
    exact ⟨hd, ha, k, script, hk, hs, hdel, hen⟩
  · intro hx
    obtain ⟨hd, ha, k, script, hk, hs, hdel, hen⟩ := hx
    exact ⟨hd, ha, script, ⟨k, hk, hs⟩, hdel, hen⟩

theorem eligible_congr (h : db'.scripts = db.scripts) (job : CronJob) :
    db'.eligible job = db.eligible job := by
  unfold eligible
  rw [h]

theorem wanted_set {stored : CronJob} (hs : db'.scripts = db.scripts)
    (hj : db'.cronJobs = db.cronJobs.set id stored) :
    wanted db' id = (if db.eligible stored then some stored.scheduleExpression else none) ∧
      ∀ j ≠ id, wanted db' j = wanted db j := by
  have helig : db'.eligible = db.eligible := funext (eligible_congr hs)
  constructor
  · have hget : db'.cronJobs.get? id = some stored := by rw [hj, Table.get?_set_self]
    rw [wanted_of_get? hget, helig]
  · intro j hne
    rw [wanted, wanted, hj, Table.get?_set_ne _ _ hne, helig]

theorem WellFormed.set_job (hw : WellFormed db) {stored : CronJob} (hs : db'.scripts = db.scripts)
    (hj : db'.cronJobs = db.cronJobs.set id stored)
    (hexpr : ∃ s : Schedule, stored.scheduleExpression = s.text)
    (href : ∀ k, stored.scriptId = some k → ∃ script, db.scripts.get? k = some script) :
    WellFormed db' := by
  have hget {j : ℕ} {job : CronJob} (h : db'.cronJobs.get? j = some job) :
      job = stored ∨ db.cronJobs.get? j = some job := by
    rw [hj, Table.get?_set] at h
    split_ifs at h with he
    · exact .inl (Option.some.inj h).symm
    · exact .inr h
  constructor
  · intro j job h
    rcases hget h with rfl | h
    · exact hexpr
    · exact hw.expression j job h
  · intro j job k h hk
    rw [hs]
    rcases hget h with rfl | h
    · exact href k hk
    · exact hw.reference j job k h hk

theorem WellFormed.set_script (hw : WellFormed db) {k : ℕ} {script : Script}
    (hj : db'.cronJobs = db.cronJobs) (hs : db'.scripts = db.scripts.set k script) :
    WellFormed db' := by
  constructor
  · intro j job h
    rw [hj] at h
    exact hw.expression j job h
  · intro j job i h hi
    rw [hj] at h
    rw [hs, Table.get?_set]
    split_ifs
    · exact ⟨script, rfl⟩
    · exact hw.reference j job i h hi

end

section Sample

def sampleUser : User :=
  { username := "admin".toList
    email := "admin@example.com".toList
    hashedPassword := []
    isActive := true
    role := .admin
    createdAt := 0
    updatedAt := 0
    lastLoginAt := none
    tokensInvalidBefore := none }

def sampleScript : Script :=
  { name := "backup".toList
    description := none
    path := "/srv/scripts/backup.py".toList
    isEnabled := true
    isDeleted := false
    createdBy := some 1
    createdAt := 0
    updatedAt := 0 }

def sampleJob : CronJob :=
  { name := "nightly".toList
    description := none
    command := "backup".toList
    scheduleExpression := "0 9 * * *".toList
    minute := "0".toList
    hour := "9".toList
    dayOfMonth := ['*']
    month := ['*']
    dayOfWeek := ['*']
    isActive := true
    isDeleted := false
    ownerId := 1
    scriptId := some 1
    createdAt := 0
    updatedAt := 0 }

def sample : Database :=
  { Database.seeded with
    users := Table.empty.set 1 sampleUser
    cronJobs := Table.empty.set 1 sampleJob
    scripts := Table.empty.set 1 sampleScript }

theorem sample_wellFormed : WellFormed sample := by
  have hjob {id : ℕ} {job : CronJob} (h : sample.cronJobs.get? id = some job) :
      job = sampleJob := by
    change (Table.set Table.empty 1 sampleJob).get? id = some job at h
    rw [Table.get?_set, Table.get?_empty] at h
    split_ifs at h
    exact (Option.some.inj h).symm
  constructor
  · intro id job h
    rw [hjob h]
    have hp : parseCronExpression (some "0 9 * * *".toList) =
        .ok ["0".toList, "9".toList, ['*'], ['*'], ['*']] := by decide
    obtain ⟨s, hs⟩ := parse_ok hp
    exact ⟨s, congrArg [' '].intercalate hs⟩
  · intro id job k h hk
    rw [hjob h] at hk
    cases hk
    exact ⟨sampleScript, rfl⟩

end Sample

/-- How a commit may change what the scheduler is to arm, by the notification that follows it. -/
def Effect (db db' : Database) : Notification → Prop
  | .jobChanged id => ∀ j ≠ id, wanted db' j = wanted db j
  | .jobRemoved id => wanted db' id = none ∧ ∀ j ≠ id, wanted db' j = wanted db j
  | .resync => ∀ j x y, wanted db j = some x → wanted db' j = some y → x = y
  | .nothing => ∀ j, wanted db' j = wanted db j

section

variable {db db' : Database} {sender : Sender} {id : ℕ}

theorem createCronJob_commit {body : CronJobCreate}
    (h : createCronJob sender body db = .ok (id, db')) :
    ∃ s : Schedule, parseCronExpression (some body.scheduleExpression) = .ok s.fields ∧
      validateScriptReference db body.scriptId = .ok () ∧ id = db.cronJobs.nextId ∧
      db'.scripts = db.scripts ∧
      ∃ job, db'.cronJobs = db.cronJobs.set id job ∧ job.scheduleExpression = s.text ∧
        job.scriptId = body.scriptId := by
  obtain ⟨call, -, h⟩ := bind_eq_ok.mp h
  obtain ⟨checked, hc, h⟩ := bind_eq_ok.mp h
  obtain ⟨hscript, s, hp, hs⟩ := CronJobCreate.validate_ok (mapError_eq_ok.mp hc)
  have hrest := createCronJob_ok hs (mapError_eq_ok.mp h)
  rw [hscript] at hrest
  exact ⟨s, hp, hrest⟩

theorem updateCronJob_commit {body : CronJobUpdate}
    (h : updateCronJob sender id body db = .ok db') :
    validateScriptReference db body.scriptId = .ok () ∧ db'.scripts = db.scripts ∧
      ∃ job stored, db.liveJob id = some job ∧ db'.cronJobs = db.cronJobs.set id stored ∧
        stored.isActive = job.isActive ∧ stored.isDeleted = job.isDeleted ∧
        stored.scriptId = (body.scriptId.map some).getD job.scriptId ∧
        (body.scheduleExpression = none ∧ stored.scheduleExpression = job.scheduleExpression ∨
          ∃ x, ∃ s : Schedule, body.scheduleExpression = some x ∧
            parseCronExpression (some x) = .ok s.fields ∧ stored.scheduleExpression = s.text) := by
  obtain ⟨call, -, h⟩ := bind_eq_ok.mp h
  obtain ⟨checked, hc, h⟩ := bind_eq_ok.mp h
  obtain ⟨hscript, hexpr⟩ := CronJobUpdate.validate_ok (mapError_eq_ok.mp hc)
  have hbody : ∀ t, checked.scheduleExpression = some t → ∃ s : Schedule, t = s.text := by
    intro t ht
    rcases hexpr with ⟨-, hn⟩ | ⟨x, s, -, -, hs⟩
    · exact absurd (hn.symm.trans ht) (by simp)
    · exact ⟨s, Option.some.inj (ht.symm.trans hs)⟩
  obtain ⟨href, hscripts, job, stored, hlive, hset, ha, hd, hk, hx⟩ :=
    updateCronJob_ok hbody (mapError_eq_ok.mp h)
  rw [hscript] at href hk
  refine ⟨href, hscripts, job, stored, hlive, hset, ha, hd, hk, ?_⟩
  rcases hexpr with ⟨hb, hn⟩ | ⟨x, s, hb, hp, hs⟩
  · rw [hn] at hx
    exact .inl ⟨hb, hx⟩
  · rw [hs] at hx
    exact .inr ⟨x, s, hb, hp, hx⟩

theorem reference_of_validated (hw : WellFormed db) {new : Option ℕ} {job : CronJob}
    (hjob : db.cronJobs.get? id = some job) (href : validateScriptReference db new = .ok ()) :
    ∀ k, (new.map some).getD job.scriptId = some k → ∃ script, db.scripts.get? k = some script := by
  intro k hk
  cases new with
  | none => exact hw.reference id job k hjob hk
  | some n =>
    obtain rfl : n = k := Option.some.inj hk
    obtain ⟨script, hs⟩ := validateScriptReference_ok href
    exact ⟨script, (liveScript_eq_some.mp hs).1⟩

end

section

variable {db db' : Database}

theorem createCronJob_effect (hw : WellFormed db) {sender : Sender} {body : CronJobCreate} {id : ℕ}
    (h : createCronJob sender body db = .ok (id, db')) :
    WellFormed db' ∧ Effect db db' (.jobChanged id) := by
  obtain ⟨s, -, href, -, hscripts, job, hset, hx, hk⟩ := createCronJob_commit h
  refine ⟨hw.set_job hscripts hset ⟨s, hx⟩ ?_, (wanted_set hscripts hset).2⟩
  intro k hk'
  rw [hk] at hk'
  rw [hk'] at href
  obtain ⟨script, hs⟩ := validateScriptReference_ok href
  exact ⟨script, (liveScript_eq_some.mp hs).1⟩

theorem updateCronJob_effect (hw : WellFormed db) {sender : Sender} {body : CronJobUpdate} {id : ℕ}
    (h : updateCronJob sender id body db = .ok db') :
    WellFormed db' ∧ Effect db db' (.jobChanged id) := by
  obtain ⟨href, hscripts, job, stored, hlive, hset, -, -, hk, hx⟩ := updateCronJob_commit h
  have hjob := (liveJob_eq_some.mp hlive).1
  refine ⟨hw.set_job hscripts hset ?_ ?_, (wanted_set hscripts hset).2⟩
  · rcases hx with ⟨-, hx⟩ | ⟨x, s, -, -, hx⟩
    · rw [hx]
      exact hw.expression id job hjob
    · exact ⟨s, hx⟩
  · rw [hk]
    exact reference_of_validated hw hjob href

theorem updateCronJobStatus_effect (hw : WellFormed db) {sender : Sender} {id : ℕ} {isActive : Bool}
    (h : updateCronJobStatus sender id isActive db = .ok db') :
    WellFormed db' ∧ Effect db db' (if isActive then .jobChanged id else .jobRemoved id) := by
  obtain ⟨call, -, h⟩ := bind_eq_ok.mp h
  obtain ⟨hscripts, job, stored, hlive, hset, ha, -, hk, hx⟩ :=
    updateCronJobStatus_ok (mapError_eq_ok.mp h)
  have hjob := (liveJob_eq_some.mp hlive).1
  have hwanted := wanted_set hscripts hset
  refine ⟨hw.set_job hscripts hset (hx ▸ hw.expression id job hjob) (hk ▸ fun k ↦ hw.reference id job k hjob), ?_⟩
  cases isActive with
  | true => exact hwanted.2
  | false =>
    refine ⟨?_, hwanted.2⟩
    rw [hwanted.1, if_neg]
    intro he
    exact absurd (eligible_iff.mp he).2.1 (by simp [ha])

theorem deleteCronJob_effect (hw : WellFormed db) {sender : Sender} {id : ℕ}
    (h : deleteCronJob sender id db = .ok db') :
    WellFormed db' ∧ Effect db db' (.jobRemoved id) := by
  obtain ⟨call, -, h⟩ := bind_eq_ok.mp h
  obtain ⟨hscripts, job, stored, hlive, hset, hd, hk, hx⟩ := deleteCronJob_ok (mapError_eq_ok.mp h)
  have hjob := (liveJob_eq_some.mp hlive).1
  have hwanted := wanted_set hscripts hset
  refine ⟨hw.set_job hscripts hset (hx ▸ hw.expression id job hjob) (hk ▸ fun k ↦ hw.reference id job k hjob), ?_, hwanted.2⟩
  rw [hwanted.1, if_neg]
  intro he
  exact absurd (eligible_iff.mp he).1 (by simp [hd])

theorem createScript_effect (hw : WellFormed db) {sender : Sender} {host : Execution.Policy.Host}
    {body : ScriptCreate} {id : ℕ} (h : createScript sender host body db = .ok (id, db')) :
    WellFormed db' ∧ Effect db db' .nothing := by
  obtain ⟨call, -, h⟩ := bind_eq_ok.mp h
  obtain ⟨checked, -, h⟩ := bind_eq_ok.mp h
  obtain ⟨rfl, hjobs, script, hset⟩ := createScript_ok (mapError_eq_ok.mp h)
  refine ⟨hw.set_script hjobs hset, fun j ↦ ?_⟩
  rw [wanted, wanted, hjobs]
  cases hj : db.cronJobs.get? j with
  | none => rfl
  | some job =>
    have helig : db'.eligible job = db.eligible job := by
      rw [Bool.eq_iff_iff, eligible_iff, eligible_iff]
      refine and_congr_right fun _ ↦ and_congr_right fun _ ↦ ?_
      refine exists_congr fun k ↦ exists_congr fun script' ↦ and_congr_right fun hk ↦ ?_
      obtain ⟨old, hold⟩ := hw.reference j job k hj hk
      rw [hset, Table.get?_set_ne _ _ (Table.lt_nextId hold).ne]
    rw [Option.filter_some, Option.filter_some, helig]

theorem updateScript_effect (hw : WellFormed db) {sender : Sender} {host : Execution.Policy.Host}
    {body : ScriptUpdate} {id : ℕ} (h : updateScript sender host id body db = .ok db') :
    WellFormed db' ∧ Effect db db' .resync := by
  obtain ⟨call, -, h⟩ := bind_eq_ok.mp h
  obtain ⟨checked, -, h⟩ := bind_eq_ok.mp h
  obtain ⟨hjobs, script, stored, -, hset⟩ := updateScript_ok (mapError_eq_ok.mp h)
  refine ⟨hw.set_script hjobs hset, fun j x y hx hy ↦ ?_⟩
  obtain ⟨job, hjob, -, rfl⟩ := wanted_eq_some.mp hx
  obtain ⟨job', hjob', -, rfl⟩ := wanted_eq_some.mp hy
  rw [hjobs, hjob] at hjob'
  rw [Option.some.inj hjob']

theorem deleteScript_effect (hw : WellFormed db) {sender : Sender} {id : ℕ}
    (h : deleteScript sender id db = .ok db') : WellFormed db' ∧ Effect db db' .nothing := by
  obtain ⟨call, -, h⟩ := bind_eq_ok.mp h
  obtain ⟨hjobs, hused, script, stored, -, hset⟩ := deleteScript_ok (mapError_eq_ok.mp h)
  refine ⟨hw.set_script hjobs hset, fun j ↦ ?_⟩
  rw [wanted, wanted, hjobs]
  cases hj : db.cronJobs.get? j with
  | none => rfl
  | some job =>
    have helig : db'.eligible job = db.eligible job := by
      rw [Bool.eq_iff_iff, eligible_iff, eligible_iff]
      refine and_congr_right fun hlive ↦ and_congr_right fun _ ↦ ?_
      refine exists_congr fun k ↦ exists_congr fun script' ↦ and_congr_right fun hk ↦ ?_
      have hne : k ≠ id := by
        intro heq
        obtain rfl := heq
        rw [isReferencedByActiveJob, List.any_eq_false] at hused
        exact hused (j, job) (Table.mem_rows.mpr hj) (by simp [hk, hlive])
      rw [hset, Table.get?_set_ne _ _ hne]
    rw [Option.filter_some, Option.filter_some, helig]

/-- What a commit does to the jobs the scheduler is to arm. -/
theorem commit_effect (hw : WellFormed db) {op : Operation} {n : Notification}
    (h : op.commit db = .ok (db', n)) : WellFormed db' ∧ Effect db db' n := by
  cases op with
  | createCronJob sender body =>
    obtain ⟨⟨id, db₁⟩, hc, h⟩ := bind_eq_ok.mp h
    cases h
    exact createCronJob_effect hw hc
  | updateCronJob sender id body =>
    obtain ⟨db₁, hc, h⟩ := bind_eq_ok.mp h
    cases h
    exact updateCronJob_effect hw hc
  | updateCronJobStatus sender id isActive =>
    obtain ⟨db₁, hc, h⟩ := bind_eq_ok.mp h
    cases h
    exact updateCronJobStatus_effect hw hc
  | deleteCronJob sender id =>
    obtain ⟨db₁, hc, h⟩ := bind_eq_ok.mp h
    cases h
    exact deleteCronJob_effect hw hc
  | createScript sender host body =>
    obtain ⟨⟨id, db₁⟩, hc, h⟩ := bind_eq_ok.mp h
    cases h
    exact createScript_effect hw hc
  | updateScript sender host id body =>
    obtain ⟨db₁, hc, h⟩ := bind_eq_ok.mp h
    cases h
    exact updateScript_effect hw hc
  | deleteScript sender id =>
    obtain ⟨db₁, hc, h⟩ := bind_eq_ok.mp h
    cases h
    exact deleteScript_effect hw hc

end

end CronPanel.Scheduler.Eligibility
