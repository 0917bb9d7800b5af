import CronPanel.Library.Renaming
import CronPanel.Scheduler.Agenda

namespace CronPanel.Scheduler.JobStore

open Library.Strings Library.Tables Library.Fallible Library.Run Library.Renaming
open Data.Records Data.Repositories Data.Repositories.Database Cron.Validator
open Api.Operations Triggers Service Eligibility

def jobIdPrefix : Text := "cronpanel:cron_job".toList

def resyncJobId : Text := "cronpanel:resync".toList

/-- Stable scheduler identifier for a cron job. -/
def jobIdFor (cronJobId : ℕ) : Text := jobIdPrefix ++ ':' :: decimal cronJobId

/-- What a job of the scheduling library calls when it is due. -/
inductive Job (A : Apscheduler)
  | runScheduledJob (cronJobId : ℕ) (armed : Armed A)
  | syncFromDb

/-- The scheduling library behind a `CronScheduler`: its jobs are kept under texts. -/
structure BackgroundScheduler (A : Apscheduler) where
  running : Bool
  jobs : Table Text (Job A)

variable {A : Apscheduler}

def BackgroundScheduler.new : BackgroundScheduler A := ⟨false, .empty⟩

def jobIds (s : BackgroundScheduler A) : List Text := s.jobs.keys

def armedJobIds (s : BackgroundScheduler A) : List Text :=
  (jobIds s).filter (jobIdPrefix ++ [':']).isPrefixOf

def armedCount (s : BackgroundScheduler A) : ℕ := (armedJobIds s).length

def addJob (id : Text) (job : Job A) (s : BackgroundScheduler A) : BackgroundScheduler A :=
  { s with jobs := s.jobs.set id job }

/-- `none` is a `JobLookupError`. -/
def removeJob (id : Text) (s : BackgroundScheduler A) : Option (BackgroundScheduler A) :=
  (s.jobs.get? id).map fun _ ↦ { s with jobs := s.jobs.erase id }

def addOrReplace (cronJobId : ℕ) (scheduleExpression : Text)
    (s : BackgroundScheduler A) : BackgroundScheduler A × Except PyError Bool :=
  match validateCronExpression (some scheduleExpression) with
  | .error e => (s, .error e)
  | .ok result =>
    match result.valid, result.normalizedExpression with
    | true, some normalized =>
      match armed? A normalized with
      | none => (s, .ok false)
      | some armed => (addJob (jobIdFor cronJobId) (.runScheduledJob cronJobId armed) s, .ok true)
    | _, _ => (s, .ok false)

def removeIfArmed (cronJobId : ℕ) (s : BackgroundScheduler A) : BackgroundScheduler A :=
  (removeJob (jobIdFor cronJobId) s).getD s

/-- The first loop of `sync_from_db`, with the exception that ends it early, if any. -/
def armAll : List (ℕ × CronJob) →
    BackgroundScheduler A → BackgroundScheduler A × Except PyError Unit
  | [], s => (s, .ok ())
  | (id, job) :: jobs, s =>
    match addOrReplace id job.scheduleExpression s with
    | (s, .ok _) => armAll jobs s
    | (s, .error e) => (s, .error e)

def syncFromDb (db : Database)
    (s : BackgroundScheduler A) : BackgroundScheduler A × Except PyError ℕ :=
  if s.running then
    let eligible := db.listEligibleForScheduling
    match armAll eligible s with
    | (s, .error e) => (s, .error e)
    | (s, .ok ()) =>
      let desiredIds := eligible.map fun r ↦ jobIdFor r.1
      let stale := (armedJobIds s).filter (!desiredIds.contains ·)
      (stale.foldl (fun s armed ↦ (removeJob armed s).getD s) s, .ok eligible.length)
  else (s, .ok 0)

/-- An exception of the first reconciliation leaves the scheduler without the periodic one. -/
def start (db : Database)
    (s : BackgroundScheduler A) : BackgroundScheduler A × Except PyError Unit :=
  if s.running then (s, .ok ())
  else
    match syncFromDb db { s with running := true } with
    | (s, .error e) => (s, .error e)
    | (s, .ok _) => (addJob resyncJobId .syncFromDb s, .ok ())

def addOrReplaceFromDb (db : Database) (cronJobId : ℕ)
    (s : BackgroundScheduler A) : BackgroundScheduler A × Except PyError Bool :=
  match db.liveJob cronJobId with
  | none => (removeIfArmed cronJobId s, .ok false)
  | some job =>
    if !job.isActive then (removeIfArmed cronJobId s, .ok false)
    else if cronJobId ∉ db.listEligibleForScheduling.map Prod.fst then
      (removeIfArmed cronJobId s, .ok false)
    else addOrReplace cronJobId job.scheduleExpression s

/-- The notification of the registry that a route makes after its commit. -/
def notify (db : Database) (s : BackgroundScheduler A) : Notification → BackgroundScheduler A
  | .jobChanged id => if s.running then (addOrReplaceFromDb db id s).1 else s
  | .jobRemoved id => if s.running then removeIfArmed id s else s
  | .resync => if s.running then (syncFromDb db s).1 else s
  | .nothing => s

/-- `GET /api/scheduler/status`. -/
structure SchedulerStatusResponse where
  running : Bool
  jobsRegistered : ℕ
  deriving DecidableEq, Repr

def schedulerStatus (s : BackgroundScheduler A) : SchedulerStatusResponse :=
  if s.running then ⟨true, armedCount s⟩ else ⟨false, 0⟩

structure Panel (A : Apscheduler) where
  db : Database
  scheduler : BackgroundScheduler A

def boot (A : Apscheduler) (db : Database) : Panel A := ⟨db, (start db .new).1⟩

/-- The periodic reconciliation is a job of the scheduling library, which runs while it is there. -/
def step (p : Panel A) : Agenda.Action → Option (Panel A)
  | .request op =>
    match op.commit p.db with
    | .error _ => some p
    | .ok (db, n) => some ⟨db, notify db p.scheduler n⟩
  | .sync =>
    match p.scheduler.jobs.get? resyncJobId with
    | some .syncFromDb => some { p with scheduler := (syncFromDb p.db p.scheduler).1 }
    | _ => none

/-- The jobs of the scheduling library are the entries of the agenda under their identifiers,
beside those that are not of a cron job. -/
structure Represents (own : Text → Option (Job A)) (s : CronScheduler A)
    (b : BackgroundScheduler A) : Prop where
  running : b.running = s.running
  jobs : Named jobIdFor Job.runScheduledJob own s.agenda b.jobs

/-- No job of another kind has an identifier that begins as those of cron jobs do. -/
def Apart (own : Text → Option (Job A)) : Prop :=
  ∀ key, (jobIdPrefix ++ [':']).isPrefixOf key → own key = none

section

theorem jobIdFor_injective : jobIdFor.Injective := by
  intro m n h
  exact decimal_inj (List.cons.inj (List.append_cancel_left h)).2

theorem jobIdFor_prefixed (cronJobId : ℕ) :
    (jobIdPrefix ++ [':']).isPrefixOf (jobIdFor cronJobId) := by
  rw [List.isPrefixOf_iff_prefix]
  exact ⟨decimal cronJobId, by rw [List.append_assoc]; rfl⟩

theorem resyncJobId_not_prefixed : (jobIdPrefix ++ [':']).isPrefixOf resyncJobId = false := by
  decide

theorem resyncJobId_ne (cronJobId : ℕ) : resyncJobId ≠ jobIdFor cronJobId := by
  intro h
  have hprefixed := jobIdFor_prefixed cronJobId
  rw [← h, resyncJobId_not_prefixed] at hprefixed
  cases hprefixed

variable {own : Text → Option (Job A)} {s : CronScheduler A} {b : BackgroundScheduler A}

theorem removeJob_getD (id : Text) (b : BackgroundScheduler A) :
    (removeJob id b).getD b = { b with jobs := b.jobs.erase id } := by
  unfold removeJob
  cases hjob : b.jobs.get? id with
  | some job => rfl
  | none =>
    have herase : b.jobs.erase id = b.jobs := by
      refine Table.ext_get? fun j ↦ ?_
      rw [Table.get?_erase]
      split_ifs with hj
      · rw [hj, hjob]
      · rfl
    rw [herase]
    rfl

theorem Represents.removeIfArmed (h : Represents own s b) (id : ℕ) :
    Represents own (Service.removeIfArmed id s) (removeIfArmed id b) := by
  rw [JobStore.removeIfArmed, removeJob_getD]
  exact ⟨h.running, h.jobs.erase jobIdFor_injective id⟩

theorem Represents.addOrReplace (h : Represents own s b) (id : ℕ) (expression : Text) :
    Represents own (s.addOrReplace id expression).1 (addOrReplace id expression b).1 ∧
      (addOrReplace id expression b).2 = (s.addOrReplace id expression).2 := by
  unfold CronScheduler.addOrReplace Triggers.addOrReplace JobStore.addOrReplace
  cases validateCronExpression (some expression) with
  | error e => exact ⟨h, rfl⟩
  | ok result =>
    rw [ok_bind]
    obtain ⟨valid, normalized, fields, code, message, field⟩ := result
    match valid, normalized with
    | false, _ => exact ⟨h, rfl⟩
    | true, none => exact ⟨h, rfl⟩
    | true, some normalized =>
      dsimp only
      cases armed? A normalized with
      | none => exact ⟨h, rfl⟩
      | some entry => exact ⟨⟨h.running, h.jobs.set jobIdFor_injective id entry⟩, rfl⟩

theorem Represents.armAll (h : Represents own s b) (jobs : List (ℕ × CronJob)) :
    Represents own { s with agenda := (Service.armAll jobs s.agenda).1 } (armAll jobs b).1 ∧
      (armAll jobs b).2 = (Service.armAll jobs s.agenda).2 := by
  induction jobs generalizing s b with
  | nil => exact ⟨h, rfl⟩
  | cons r jobs ih =>
    obtain ⟨id, job⟩ := r
    obtain ⟨hadd, houtcome⟩ := h.addOrReplace id job.scheduleExpression
    unfold CronScheduler.addOrReplace at hadd houtcome
    unfold Service.armAll JobStore.armAll
    cases htriggers : Triggers.addOrReplace A s.agenda id job.scheduleExpression with
    | error e =>
      rw [htriggers] at hadd houtcome
      cases hstore : JobStore.addOrReplace id job.scheduleExpression b with
      | mk b' outcome =>
        rw [hstore] at hadd houtcome
        obtain rfl : outcome = .error e := houtcome
        exact ⟨hadd, rfl⟩
    | ok result =>
      rw [htriggers] at hadd houtcome
      cases hstore : JobStore.addOrReplace id job.scheduleExpression b with
      | mk b' outcome =>
        rw [hstore] at hadd houtcome
        obtain rfl : outcome = .ok result.1 := houtcome
        exact ih hadd

theorem armedJobIds_mem (h : Represents own s b) (id : ℕ) :
    jobIdFor id ∈ armedJobIds b ↔ id ∈ s.agenda.keys := by
  rw [armedJobIds, List.mem_filter, and_iff_left (jobIdFor_prefixed id)]
  exact h.jobs.mem_keys

theorem foldl_removeJob (keys : List Text) (b : BackgroundScheduler A) :
    keys.foldl (fun b armed ↦ (removeJob armed b).getD b) b =
      { b with jobs := keys.foldl Table.erase b.jobs } := by
  induction keys generalizing b with
  | nil => rfl
  | cons key keys ih =>
    rw [List.foldl_cons, removeJob_getD, ih]
    rfl

theorem Represents.removeStale (hown : Apart own) (h : Represents own s b) (desired : List ℕ) :
    Represents own { s with agenda := Service.removeStale desired s.agenda }
      (((armedJobIds b).filter (!(desired.map jobIdFor).contains ·)).foldl
        (fun b armed ↦ (removeJob armed b).getD b) b) := by
  rw [foldl_removeJob]
  refine ⟨h.running, h.jobs.foldl_erase ?_ ?_⟩
  · intro id
    rw [List.mem_filter, List.mem_filter, armedJobIds_mem h]
    refine and_congr_right fun _ ↦ ?_
    rw [Bool.not_eq_true', List.contains_eq_mem, decide_eq_false_iff_not, decide_eq_true_iff,
      List.mem_map_of_injective jobIdFor_injective]
  · intro key hkey _
    exact hown key (List.mem_filter.mp (List.mem_filter.mp hkey).1).2

theorem Represents.syncFromDb (hown : Apart own) (h : Represents own s b) (db : Database) :
    Represents own (Service.syncFromDb db s).1 (syncFromDb db b).1 ∧
      (syncFromDb db b).2 = (Service.syncFromDb db s).2 := by
  obtain ⟨running, agenda₀⟩ := s
  unfold Service.syncFromDb JobStore.syncFromDb
  rw [h.running]
  cases running with
  | false => exact ⟨h, rfl⟩
  | true =>
    obtain ⟨hall, houtcome⟩ := h.armAll db.listEligibleForScheduling
    simp only [if_true]
    cases hagenda : Service.armAll db.listEligibleForScheduling agenda₀ with
    | mk agenda outcome =>
      cases hstore : JobStore.armAll db.listEligibleForScheduling b with
      | mk b' outcome' =>
        rw [hagenda, hstore] at hall houtcome
        obtain rfl : outcome' = outcome := houtcome
        cases outcome' with
        | error e => exact ⟨hall, rfl⟩
        | ok u =>
          refine ⟨?_, rfl⟩
          have hstale := hall.removeStale hown (db.listEligibleForScheduling.map Prod.fst)
          rw [List.map_map] at hstale
          exact hstale

theorem Represents.addOrReplaceFromDb (h : Represents own s b) (db : Database) (id : ℕ) :
    Represents own (Service.addOrReplaceFromDb db id s).1 (addOrReplaceFromDb db id b).1 := by
  unfold Service.addOrReplaceFromDb JobStore.addOrReplaceFromDb
  cases db.liveJob id with
  | none => exact h.removeIfArmed id
  | some job =>
    dsimp only
    split_ifs
    · exact h.removeIfArmed id
    · exact (h.addOrReplace id job.scheduleExpression).1
    · exact h.removeIfArmed id

theorem Represents.notify (hown : Apart own) (h : Represents own s b) (db : Database)
    (n : Notification) : Represents own (n.deliver db s).1 (notify db b n) := by
  have hrunning := h.running
  cases n with
  | jobChanged id =>
    rw [JobStore.notify, Notification.deliver, notifyJobChanged, hrunning]
    split_ifs
    · exact h.addOrReplaceFromDb db id
    · exact h
  | jobRemoved id =>
    rw [JobStore.notify, Notification.deliver, notifyJobRemoved, hrunning]
    split_ifs
    · exact h.removeIfArmed id
    · exact h
  | resync =>
    rw [JobStore.notify, Notification.deliver, resync, hrunning]
    split_ifs
    · exact (h.syncFromDb hown db).1
    · exact h
  | nothing => exact h

/-- What the scheduling library keeps beside the jobs of the panel. -/
def resyncing (A : Apscheduler) (key : Text) : Option (Job A) :=
  if key = resyncJobId then some .syncFromDb else none

theorem apart_resyncing : Apart (resyncing A) := by
  intro key hkey
  refine if_neg ?_
  rintro rfl
  rw [resyncJobId_not_prefixed] at hkey
  cases hkey

/-- The number of jobs that the status tells is that of the jobs in the agenda. -/
theorem Represents.armedCount (hown : Apart own) (h : Represents own s b) :
    armedCount b = s.agenda.keys.length := by
  have hperm := h.jobs.keys_perm jobIdFor_injective jobIdFor_prefixed fun key hkey _ ↦ hown key hkey
  rw [JobStore.armedCount, armedJobIds, jobIds, hperm.length_eq, List.length_map]

theorem Represents.resyncs (h : Represents (resyncing A) s b) :
    b.jobs.get? resyncJobId = some .syncFromDb := by
  rw [h.jobs.rest _ resyncJobId_ne]
  exact if_pos rfl

/-- After a start on a database whose expressions are those of schedules, the reconciliation
goes on. -/
theorem represents_boot {db : Database} (hw : WellFormed db) :
    Represents (resyncing A) (Agenda.boot A db).scheduler (boot A db).scheduler := by
  have hnew : Represents (fun _ ↦ none) (⟨true, .empty⟩ : CronScheduler A) ⟨true, .empty⟩ :=
    ⟨rfl, Named.empty⟩
  obtain ⟨hsync, houtcome⟩ := hnew.syncFromDb (fun _ _ ↦ rfl) db
  obtain ⟨agenda, hagenda, -⟩ := Agenda.syncFromDb_spec (A := A) hw (s := ⟨true, .empty⟩) rfl
  rw [hagenda] at hsync houtcome
  have hboot : (Agenda.boot A db).scheduler = ⟨true, agenda⟩ := by
    rw [Agenda.boot, Service.start, CronScheduler.new, if_neg Bool.false_ne_true, hagenda]
  have hstart : (boot A db).scheduler =
      addJob resyncJobId .syncFromDb
        (JobStore.syncFromDb db (⟨true, .empty⟩ : BackgroundScheduler A)).1 := by
    rw [boot, start, BackgroundScheduler.new, if_neg Bool.false_ne_true]
    cases hstore : JobStore.syncFromDb db (⟨true, .empty⟩ : BackgroundScheduler A) with
    | mk b outcome =>
      rw [hstore] at houtcome
      obtain rfl : outcome = .ok _ := houtcome
      rfl
  rw [hboot, hstart]
  refine ⟨hsync.running, hsync.jobs.set_own resyncJobId_ne .syncFromDb fun key ↦ ?_⟩
  unfold resyncing
  split_ifs <;> rfl

/-- The panel with the jobs of the scheduling library, beside the one with the agenda. -/
structure Follows (p : Panel A) (q : Agenda.Panel A) : Prop where
  db : p.db = q.db
  wellFormed : WellFormed q.db
  running : q.scheduler.running
  jobs : Represents (resyncing A) q.scheduler p.scheduler

theorem follows_step (p : Panel A) (q : Agenda.Panel A) (a : Agenda.Action) (h : Follows p q) :
    ∃ p' q', step p a = some p' ∧ Agenda.step q a = some q' ∧ Follows p' q' := by
  cases a with
  | request op =>
    rw [step, Agenda.step, Agenda.serve, h.db]
    cases hcommit : op.commit q.db with
    | error e => exact ⟨_, _, rfl, rfl, h⟩
    | ok r =>
      obtain ⟨hw, he⟩ := commit_effect h.wellFormed hcommit
      obtain ⟨agenda, hdeliver, -⟩ := Agenda.deliver_spec hw he h.running
      refine ⟨_, _, rfl, rfl, rfl, hw, ?_, h.jobs.notify apart_resyncing r.1 r.2⟩
      change (r.2.deliver r.1 q.scheduler).1.running
      rw [hdeliver]
  | sync =>
    rw [step, Agenda.step, h.jobs.resyncs, h.db]
    obtain ⟨agenda, hsync, -⟩ := Agenda.syncFromDb_spec h.wellFormed h.running
    refine ⟨_, _, rfl, rfl, rfl, h.wellFormed, ?_, (h.jobs.syncFromDb apart_resyncing q.db).1⟩
    rw [hsync]

theorem follows_run {db : Database} (hw : WellFormed db) (as : List Agenda.Action) :
    ∃ p q, exec step (boot A db) as = some p ∧ exec Agenda.step (Agenda.boot A db) as = some q ∧
      Follows p q :=
  exec_related follows_step ⟨rfl, hw, (Agenda.inSync_boot hw).running, represents_boot hw⟩ as

theorem Follows.status {p : Panel A} {q : Agenda.Panel A} (h : Follows p q) :
    schedulerStatus p.scheduler = ⟨true, q.scheduler.agenda.keys.length⟩ := by
  rw [schedulerStatus, h.jobs.running, h.running, if_pos rfl, h.jobs.armedCount apart_resyncing]

/-- The agenda has a job for every eligible one whose expression can be armed. -/
theorem length_keys_of_inSync {q : Agenda.Panel A} (h : Agenda.InSync q) :
    q.scheduler.agenda.keys.length =
      q.db.listEligibleForScheduling.countP fun r ↦
        (A.fromCrontab r.2.scheduleExpression).isSome := by
  have hperm : q.scheduler.agenda.keys.Perm ((q.db.listEligibleForScheduling.filter fun r ↦
      (A.fromCrontab r.2.scheduleExpression).isSome).map Prod.fst) := by
    refine (List.perm_ext_iff_of_nodup (Table.nodup_keys _) ?_).mpr fun id ↦ ?_
    · exact (Agenda.nodup_eligible q.db).sublist (List.filter_sublist.map _)
    · rw [Table.mem_keys, h.entry, ← Option.isSome_iff_exists, Option.isSome_bind]
      simp only [List.mem_map, List.mem_filter, Prod.exists, exists_and_right, exists_eq_right,
        mem_listEligible, Option.any_eq_true, wanted_eq_some, armed?_isSome]
      constructor
      · rintro ⟨x, ⟨job, hjob, he, rfl⟩, harms⟩
        exact ⟨job, ⟨hjob, he⟩, harms⟩
      · rintro ⟨job, ⟨hjob, he⟩, harms⟩
        exact ⟨_, ⟨job, hjob, he, rfl⟩, harms⟩
  rw [hperm.length_eq, List.length_map, List.countP_eq_length_filter]

end

/-- Whatever requests and reconciliations follow a start, the jobs of the scheduling library are
the entries of the agenda, each once, under its own identifier and with its own number, beside the
periodic reconciliation, which is never dropped nor counted. -/
theorem job_store_refines_agenda {db : Database} (hw : WellFormed db) (as : List Agenda.Action) :
    ∃ p q, exec step (boot A db) as = some p ∧ exec Agenda.step (Agenda.boot A db) as = some q ∧
      p.db = q.db ∧
      (∀ key job, p.scheduler.jobs.get? key = some job ↔
        key = resyncJobId ∧ job = .syncFromDb ∨
        ∃ id armed, key = jobIdFor id ∧ job = .runScheduledJob id armed ∧
          q.scheduler.agenda.get? id = some armed) ∧
      schedulerStatus p.scheduler = ⟨true, q.scheduler.agenda.keys.length⟩ := by
  obtain ⟨p, q, hp, hq, h⟩ := follows_run hw as
  refine ⟨p, q, hp, hq, h.db, fun key job ↦ ?_, h.status⟩
  · rw [h.jobs.jobs.get?_eq_some jobIdFor_injective]
    refine or_congr ?_ ?_
    · rw [resyncing]
      constructor
      · rintro ⟨-, hown⟩
        split_ifs at hown with hkey
        exact ⟨hkey, (Option.some.inj hown).symm⟩
      · rintro ⟨rfl, rfl⟩
        exact ⟨resyncJobId_ne, if_pos rfl⟩
    · refine exists₂_congr fun id armed ↦ ?_
      rw [and_comm (a := job = _), eq_comm (a := job)]

/-- The status tells, as long as no update disarms a job, how many eligible jobs have an
expression that can be armed. -/
theorem status_counts_armable {db : Database} (hw : WellFormed db) {as : List Agenda.Action}
    (has : Guarded Agenda.step (fun p a ↦ ¬Agenda.Disarming p a) (Agenda.boot A db) as)
    {p : Panel A} (hp : exec step (boot A db) as = some p) :
    schedulerStatus p.scheduler = ⟨true, p.db.listEligibleForScheduling.countP fun r ↦
      (A.fromCrontab r.2.scheduleExpression).isSome⟩ := by
  obtain ⟨p', q, hp', hq, h⟩ := follows_run hw as
  obtain rfl := Option.some.inj (hp'.symm.trans hp)
  have hsync : Always Agenda.step Agenda.InSync (Agenda.boot A db) as :=
    guarded_always (fun _ _ _ hq ha hstep ↦ hq.step ha hstep) (Agenda.inSync_boot hw) has
  rw [h.status, length_keys_of_inSync (hsync.last hq), h.db]

section Sample

open Apscheduler

/-- A second reconciliation, and a job that is paused. -/
def pausing : List Agenda.Action := [.sync, .request (.updateCronJobStatus ⟨1, 5, none⟩ 1 false)]

theorem job_store_refines_agenda_sample :
    ((exec step (boot apscheduler sample) [.sync]).map fun p ↦ armedJobIds p.scheduler) =
      some ["cronpanel:cron_job:1".toList] ∧
    ((exec step (boot apscheduler sample) pausing).map fun p ↦
      (jobIds p.scheduler, schedulerStatus p.scheduler)) =
      some (["cronpanel:resync".toList], ⟨true, 0⟩) ∧
    ∃ p q, exec step (boot apscheduler sample) pausing = some p ∧
      exec Agenda.step (Agenda.boot apscheduler sample) pausing = some q ∧
      p.db = q.db ∧
      (∀ key job, p.scheduler.jobs.get? key = some job ↔
        key = resyncJobId ∧ job = .syncFromDb ∨
        ∃ id armed, key = jobIdFor id ∧ job = .runScheduledJob id armed ∧
          q.scheduler.agenda.get? id = some armed) ∧
      schedulerStatus p.scheduler = ⟨true, q.scheduler.agenda.keys.length⟩ :=
  ⟨by decide +kernel, by decide +kernel, job_store_refines_agenda sample_wellFormed pausing⟩

theorem status_counts_armable_sample :
    ∃ p, exec step (boot apscheduler sample) pausing = some p ∧
      schedulerStatus p.scheduler = ⟨true, p.db.listEligibleForScheduling.countP fun r ↦
        (apscheduler.fromCrontab r.2.scheduleExpression).isSome⟩ := by
  obtain ⟨p, hp⟩ : ∃ p, exec step (boot apscheduler sample) pausing = some p :=
    Option.isSome_iff_exists.mp (by decide +kernel)
  have hguarded : Guarded Agenda.step (fun p a ↦ ¬Agenda.Disarming p a)
      (Agenda.boot apscheduler sample) pausing := ⟨id, fun _ _ ↦ ⟨id, fun _ _ ↦ trivial⟩⟩
  exact ⟨p, hp, status_counts_armable sample_wellFormed hguarded hp⟩

end Sample

end CronPanel.Scheduler.JobStore
