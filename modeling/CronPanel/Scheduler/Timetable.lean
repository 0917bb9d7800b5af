import CronPanel.Scheduler.Agenda

namespace CronPanel.Scheduler.Timetable

open Library.Strings Library.Tables Library.Fallible Data.Records Data.Repositories
open Cron.Validator Cron.Elements Cron.Grammar Api.Operations Triggers Service Eligibility Agenda

/-- What the scheduling library knows of time: when a trigger occurs, and its next fire time
from a moment on. -/
structure Calendar (A : Apscheduler) where
  occurs : A.Trigger → ℕ → Prop
  nextFireTime : A.Trigger → ℕ → Option ℕ

/-- The next fire time is the first occurrence that is not before the moment. -/
structure Calendar.Documented {A : Apscheduler} (C : Calendar A) : Prop where
  next : ∀ trigger now t, C.nextFireTime trigger now = some t ↔
    IsLeast {t | now ≤ t ∧ C.occurs trigger t} t

/-- An entry of the job store with the time it is due next. -/
structure ScheduledJob (A : Apscheduler) where
  entry : Armed A
  nextRunTime : Option ℕ

abbrev Store (A : Apscheduler) := Table ℕ (ScheduledJob A)

variable {A : Apscheduler} (C : Calendar A) (now : ℕ)

/-- `add_job` with `replace_existing` and without a `next_run_time`. -/
def addJob (cronJobId : ℕ) (entry : Armed A) (store : Store A) : Store A :=
  store.set cronJobId ⟨entry, C.nextFireTime entry.trigger now⟩

def addOrReplace (store : Store A) (cronJobId : ℕ) (scheduleExpression : Text) :
    Except PyError (Bool × Store A) := do
  let result ← validateCronExpression (some scheduleExpression)
  match result.valid, result.normalizedExpression with
  | true, some normalized =>
    match armed? A normalized with
    | none => .ok (false, store)
    | some entry => .ok (true, addJob C now cronJobId entry store)
  | _, _ => .ok (false, store)

def armAll : List (ℕ × CronJob) → Store A → Store A × Except PyError Unit
  | [], store => (store, .ok ())
  | (id, job) :: jobs, store =>
    match addOrReplace C now store id job.scheduleExpression with
    | .ok (_, store) => armAll jobs store
    | .error e => (store, .error e)

def syncFromDb (db : Database) (store : Store A) : Store A × Except PyError ℕ :=
  let eligible := db.listEligibleForScheduling
  match armAll C now eligible store with
  | (store, .error e) => (store, .error e)
  | (store, .ok ()) =>
    let desiredIds := eligible.map Prod.fst
    ((store.keys.filter (· ∉ desiredIds)).foldl Table.erase store, .ok eligible.length)

def addOrReplaceFromDb (db : Database) (cronJobId : ℕ)
    (store : Store A) : Store A × Except PyError Bool :=
  match db.liveJob cronJobId with
  | none => (store.erase cronJobId, .ok false)
  | some job =>
    if !job.isActive then (store.erase cronJobId, .ok false)
    else if cronJobId ∉ db.listEligibleForScheduling.map Prod.fst then
      (store.erase cronJobId, .ok false)
    else
      match addOrReplace C now store cronJobId job.scheduleExpression with
      | .ok (armed, store) => (store, .ok armed)
      | .error e => (store, .error e)

/-- The call that a route makes after its commit. -/
def deliver (db : Database) (store : Store A) : Notification → Store A
  | .jobChanged id => (addOrReplaceFromDb C now db id store).1
  | .jobRemoved id => store.erase id
  | .resync => (syncFromDb C now db store).1
  | .nothing => store

def isDue (job : ScheduledJob A) : Bool := job.nextRunTime.any (· ≤ now)

/-- The jobs that a tick hands to `run_scheduled_job`, with the times they were due. -/
def submissions (misfireGrace : ℕ) (store : Store A) : List (ℕ × ℕ) :=
  store.rows.filterMap fun r ↦
    (r.2.nextRunTime.filter fun t ↦ t ≤ now && now ≤ t + misfireGrace).map fun t ↦ (r.1, t)

/-- A tick sets a job that was due to its first occurrence after the tick, and drops it when
there is none. -/
def advance (store : Store A) : Store A :=
  (store.filter fun job ↦ !isDue now job || (C.nextFireTime job.entry.trigger (now + 1)).isSome).map fun job ↦
    if isDue now job then { job with nextRunTime := C.nextFireTime job.entry.trigger (now + 1) } else job

section

variable {C now} {db : Database} {store : Store A}

/-- The entry of an expression that is armed at a moment. -/
def scheduled (C : Calendar A) (now : ℕ) (expression : Text) : Option (ScheduledJob A) :=
  (armed? A expression).map fun entry ↦ ⟨entry, C.nextFireTime entry.trigger now⟩

/-- An expression that cannot be armed leaves the old entry of its job. -/
def rearmed (C : Calendar A) (now : ℕ) (expression : Text)
    (old : Option (ScheduledJob A)) : Option (ScheduledJob A) :=
  (scheduled C now expression).or old

theorem addOrReplace_text (C : Calendar A) (now : ℕ) (s : Schedule) (store : Store A)
    (id : ℕ) :
    ∃ armed, addOrReplace C now store id s.text =
      .ok (armed, (scheduled C now s.text).elim store (store.set id)) := by
  simp only [addOrReplace, validate_ok (parse_text s), ok_bind, scheduled]
  cases armed? A s.text with
  | none => exact ⟨false, rfl⟩
  | some entry => exact ⟨true, rfl⟩

theorem armAll_eq (C : Calendar A) (now : ℕ) {jobs : List (ℕ × CronJob)}
    (hexpr : ∀ r ∈ jobs, ∃ s : Schedule, r.2.scheduleExpression = s.text) (store : Store A) :
    armAll C now jobs store =
      (jobs.foldl (fun store r ↦ (scheduled C now r.2.scheduleExpression).elim store (store.set r.1)) store, .ok ()) := by
  induction jobs generalizing store with
  | nil => rfl
  | cons r jobs ih =>
    obtain ⟨s, hs⟩ := hexpr r List.mem_cons_self
    obtain ⟨armed, hadd⟩ := addOrReplace_text C now s store r.1
    have hrest := ih (fun q hq ↦ hexpr q (List.mem_cons_of_mem _ hq))
    simp only [armAll, hs, hadd, hrest, List.foldl_cons]

/-- A reconciliation sets the next run of every eligible job from the moment it is made. -/
theorem syncFromDb_spec (C : Calendar A) (now : ℕ) (hw : WellFormed db) (store : Store A) (j : ℕ) :
    (syncFromDb C now db store).1.get? j = (wanted db j).bind fun x ↦
      rearmed C now x (store.get? j) := by
  have hexpr :
      ∀ r ∈ db.listEligibleForScheduling, ∃ s : Schedule, r.2.scheduleExpression = s.text :=
    fun r hm ↦ hw.expression r.1 r.2 (Database.mem_listEligible.mp hm).1
  obtain ⟨hmem, -⟩ :=
    Table.get?_foldl_set Prod.fst (fun r ↦ scheduled C now r.2.scheduleExpression)
      (nodup_eligible db) store
  simp only [syncFromDb, armAll_eq C now hexpr]
  rw [Table.get?_erase_unlisted]
  simp only [mem_eligible_iff]
  cases hj : wanted db j with
  | none => rfl
  | some x =>
    obtain ⟨job, hjob, he, rfl⟩ := wanted_eq_some.mp hj
    exact hmem (j, job) (Database.mem_listEligible.mpr ⟨hjob, he⟩)

theorem addOrReplaceFromDb_spec (hw : WellFormed db) (id : ℕ) (store : Store A) (j : ℕ) :
    (addOrReplaceFromDb C now db id store).1.get? j =
      if j = id then (wanted db id).bind fun x ↦ rearmed C now x (store.get? id)
        else store.get? j := by
  cases hx : wanted db id with
  | none =>
    have hmem : id ∉ db.listEligibleForScheduling.map Prod.fst := by simp [mem_eligible_iff, hx]
    have hremove : (addOrReplaceFromDb C now db id store).1 = store.erase id := by
      unfold addOrReplaceFromDb
      split
      · rfl
      · split_ifs <;> rfl
    rw [hremove]
    exact Table.get?_erase _ _ _
  | some x =>
    obtain ⟨job, hlive, hactive, rfl, hmem⟩ := liveJob_of_wanted hx
    obtain ⟨sched, hs⟩ := wanted_schedule hw hx
    obtain ⟨armed, hadd⟩ := addOrReplace_text C now sched store id
    simp only [addOrReplaceFromDb, hlive, hactive, Bool.not_true, Bool.false_eq_true, if_false,
      if_neg (not_not.mpr hmem), hs, hadd]
    rw [Table.get?_elim_set, Option.bind_some, rearmed]
    split_ifs with hj
    · rw [hj]
    · rfl

theorem deliver_spec (C : Calendar A) (now : ℕ) {db' : Database} (hw : WellFormed db')
    {n : Notification} (he : Effect db db' n)
    (store : Store A) (j : ℕ) : (deliver C now db' store n).get? j =
      if Covers n j then (wanted db' j).bind fun x ↦ rearmed C now x (store.get? j)
        else store.get? j := by
  cases n with
  | jobChanged id =>
    rw [deliver, addOrReplaceFromDb_spec hw]
    by_cases hj : j = id
    · simp only [hj, Covers, if_true]
    · simp only [hj, Covers, if_false]
  | jobRemoved id =>
    rw [deliver, Table.get?_erase]
    by_cases hj : j = id
    · simp only [hj, Covers, if_true, he.1, Option.bind_none]
    · simp only [hj, Covers, if_false]
  | resync => rw [deliver, syncFromDb_spec C now hw, if_pos (show Covers .resync j from trivial)]
  | nothing => exact (if_neg (fun h : Covers .nothing j ↦ h)).symm

/-- The store holds, with their times, the entries that the scheduler without time holds. -/
structure Tracks (store : Store A) (s : Service.CronScheduler A) : Prop where
  running : s.running
  entries : ∀ j, (store.get? j).map ScheduledJob.entry = s.agenda.get? j

theorem map_entry_rearmed (want : Option Text) (old : Option (ScheduledJob A)) :
    (want.bind fun x ↦ rearmed C now x old).map ScheduledJob.entry =
      refreshed want (old.map ScheduledJob.entry) := by
  cases want with
  | none => rfl
  | some x =>
    rw [Option.bind_some, rearmed, scheduled, refreshed, Option.bind_some]
    cases armed? A x <;> rfl

theorem Tracks.syncFromDb {s : Service.CronScheduler A} (h : Tracks store s) (hw : WellFormed db) :
    Tracks (syncFromDb C now db store).1 (Service.syncFromDb db s).1 := by
  obtain ⟨agenda', hsync, hget⟩ := Agenda.syncFromDb_spec hw h.running
  rw [hsync]
  refine ⟨rfl, fun j ↦ ?_⟩
  rw [Timetable.syncFromDb_spec C now hw, map_entry_rearmed, h.entries, hget]

theorem Tracks.deliver {db' : Database} {s : Service.CronScheduler A} (h : Tracks store s)
    (hw : WellFormed db')
    {n : Notification} (he : Effect db db' n) :
    Tracks (deliver C now db' store n) (n.deliver db' s).1 := by
  obtain ⟨agenda', hdeliver, hget⟩ := Agenda.deliver_spec hw he h.running
  rw [hdeliver]
  refine ⟨rfl, fun j ↦ ?_⟩
  rw [Timetable.deliver_spec C now hw he, hget]
  split_ifs
  · rw [map_entry_rearmed, h.entries]
  · exact h.entries j

theorem Calendar.Documented.next_congr (hC : C.Documented) {trigger : A.Trigger} {a b : ℕ}
    (h : ∀ t, C.occurs trigger t → (a ≤ t ↔ b ≤ t)) :
    C.nextFireTime trigger a = C.nextFireTime trigger b := by
  have hset : {t | a ≤ t ∧ C.occurs trigger t} = {t | b ≤ t ∧ C.occurs trigger t} :=
    Set.ext fun t ↦ and_congr_left (h t)
  ext t
  rw [hC.next, hC.next, hset]

theorem Calendar.Documented.exists_next (hC : C.Documented) {trigger : A.Trigger} {t : ℕ}
    (hnow : now ≤ t) (ht : C.occurs trigger t) : ∃ u ≤ t, C.nextFireTime trigger now = some u := by
  classical
  have hex : ∃ u, now ≤ u ∧ C.occurs trigger u := ⟨t, hnow, ht⟩
  refine ⟨Nat.find hex, Nat.find_min' hex ⟨hnow, ht⟩,
    (hC.next ..).mpr ⟨Nat.find_spec hex, fun u hu ↦ ?_⟩⟩
  exact Nat.find_min' hex hu

theorem mem_submissions {misfireGrace id t : ℕ} : (id, t) ∈ submissions now misfireGrace store ↔
    (store.get? id).bind ScheduledJob.nextRunTime = some t ∧ t ≤ now ∧ now ≤ t + misfireGrace := by
  simp only [submissions, List.mem_filterMap, Option.map_eq_some_iff, Option.filter_eq_some_iff,
    Bool.and_eq_true, decide_eq_true_eq, Option.bind_eq_some_iff]
  constructor
  · intro hin
    obtain ⟨⟨j, job⟩, hrow, u, ⟨hnext, hdue⟩, hpair⟩ := hin
    obtain ⟨rfl, rfl⟩ := Prod.mk.inj hpair
    exact ⟨⟨job, Table.mem_rows.mp hrow, hnext⟩, hdue⟩
  · intro hin
    obtain ⟨⟨job, hjob, hnext⟩, hdue⟩ := hin
    exact ⟨(id, job), Table.mem_rows.mpr hjob, t, ⟨hnext, hdue⟩, rfl⟩

theorem nodup_submissions (now misfireGrace : ℕ) (store : Store A) :
    (submissions now misfireGrace store).Nodup := by
  refine List.Pairwise.filterMap _ ?_ store.sorted
  intro r q hlt x hx y hy hxy
  obtain ⟨t, -, rfl⟩ := Option.map_eq_some_iff.mp hx
  obtain ⟨u, -, rfl⟩ := Option.map_eq_some_iff.mp hy
  exact hlt.ne (Prod.mk.inj hxy).1

/-- No tick submits a job twice. -/
theorem count_submissions (now misfireGrace : ℕ) (store : Store A) (id t : ℕ) :
    (submissions now misfireGrace store).count (id, t) =
    if (store.get? id).bind ScheduledJob.nextRunTime = some t ∧ t ≤ now ∧ now ≤ t + misfireGrace
    then 1 else 0 := by
  rw [(nodup_submissions ..).count]
  simp only [mem_submissions]

theorem entry_of_advance {id : ℕ} {job : ScheduledJob A}
    (h : (advance C now store).get? id = some job) :
    ∃ old, store.get? id = some old ∧ job.entry = old.entry := by
  rw [advance, Table.get?_map, Option.map_eq_some_iff] at h
  obtain ⟨old, hold, rfl⟩ := h
  rw [Table.get?_filter, Option.filter_eq_some_iff] at hold
  refine ⟨old, hold.1, ?_⟩
  split_ifs <;> rfl

/-- After a tick the next run of a job is the first occurrence after it. -/
theorem nextRunTime_advance (hC : C.Documented) {id since : ℕ} {trigger : A.Trigger}
    (hsince : since ≤ now + 1)
    (hentry : ∀ job, store.get? id = some job → job.entry.trigger = trigger)
    (hnext : (store.get? id).bind ScheduledJob.nextRunTime = C.nextFireTime trigger since) :
    ((advance C now store).get? id).bind ScheduledJob.nextRunTime =
      C.nextFireTime trigger (now + 1) := by
  have hlater (h : ∀ t, C.nextFireTime trigger since = some t → now < t) :
      C.nextFireTime trigger since = C.nextFireTime trigger (now + 1) := by
    refine hC.next_congr fun t ht ↦ ⟨fun hle ↦ ?_, fun hle ↦ by omega⟩
    obtain ⟨u, hu, hfirst⟩ := hC.exists_next hle ht
    have := h u hfirst
    omega
  rw [advance, Table.get?_map, Table.get?_filter]
  cases hget : store.get? id with
  | none =>
    rw [hget] at hnext
    rw [← hlater fun t ht ↦ absurd (hnext.trans ht) (by simp)]
    exact hnext
  | some job =>
    rw [hget] at hnext
    obtain rfl := hentry job hget
    replace hnext : job.nextRunTime = C.nextFireTime job.entry.trigger since := hnext
    by_cases hdue : isDue now job
    · cases hafter : C.nextFireTime job.entry.trigger (now + 1) with
      | none => simp [Option.filter_some, hdue, hafter]
      | some t => simp [Option.filter_some, hdue, hafter]
    · rw [← hlater, ← hnext]
      · simp [Option.filter_some, hdue]
      · intro t ht
        rw [← hnext] at ht
        simpa [isDue, ht] using hdue

end

end CronPanel.Scheduler.Timetable
