import CronPanel.Scheduler.Agenda

namespace CronPanel.Scheduler.Concurrency

open Library.Strings Library.Tables Library.Fallible Library.Run
open Data.Records Data.Repositories Data.Repositories.Database Cron.Validator Cron.Elements Cron.Grammar
open Api.Errors Api.Operations Triggers Apscheduler Service Eligibility Agenda

variable {A : Apscheduler}

/-- What is left to do of a notification or of a reconciliation that has begun. The
reads are done on the database, and the writes on the agenda, in steps of their own. -/
inductive Activity
  | reading (id : ℕ)
  | writing (id : ℕ) (decision : Option Text)
  | syncing
  | arming (jobs : List (ℕ × CronJob)) (desiredIds : List ℕ)
  | removing (ids : List ℕ)

def begun : Notification → Option Activity
  | .jobChanged id => some (.reading id)
  | .jobRemoved id => some (.writing id none)
  | .resync => some .syncing
  | .nothing => none

def readJob (db : Database) (id : ℕ) : Option Text :=
  match db.liveJob id with
  | none => none
  | some job =>
    if !job.isActive then none
    else if id ∉ db.listEligibleForScheduling.map Prod.fst then none
    else some job.scheduleExpression

def write (id : ℕ) (decision : Option Text)
    (s : CronScheduler A) : CronScheduler A × Except PyError Bool :=
  match decision with
  | none => (removeIfArmed id s, .ok false)
  | some expression => s.addOrReplace id expression

theorem addOrReplaceFromDb_eq (db : Database) (id : ℕ) (s : CronScheduler A) :
    addOrReplaceFromDb db id s = write id (readJob db id) s := by
  unfold addOrReplaceFromDb readJob
  cases db.liveJob id with
  | none => rfl
  | some job =>
    dsimp only
    split_ifs <;> rfl

theorem readJob_eq (db : Database) (id : ℕ) : readJob db id = wanted db id := by
  unfold readJob
  cases hw : wanted db id with
  | none =>
    have hmem : id ∉ db.listEligibleForScheduling.map Prod.fst := by simp [mem_eligible_iff, hw]
    split
    · rfl
    · split_ifs <;> rfl
  | some x =>
    have hmem : id ∈ db.listEligibleForScheduling.map Prod.fst := by simp [mem_eligible_iff, hw]
    obtain ⟨job, hjob, he, rfl⟩ := wanted_eq_some.mp hw
    obtain ⟨hlive, hactive, -⟩ := eligible_iff.mp he
    rw [liveJob_eq_some.mpr ⟨hjob, hlive⟩]
    simp only [hactive, hmem, Bool.not_true, Bool.false_eq_true, if_false, not_true_eq_false]

/-- The next step of an activity, and what is left of it. A reconciliation asks for the
armed jobs after it has armed the eligible ones. -/
def Activity.advance (db : Database) (s : CronScheduler A) :
    Activity → CronScheduler A × Option Activity
  | reading id => (s, some (writing id (readJob db id)))
  | writing id decision => ((write id decision s).1, none)
  | syncing =>
    (s, some (arming db.listEligibleForScheduling (db.listEligibleForScheduling.map Prod.fst)))
  | arming ((id, job) :: jobs) desiredIds =>
    match s.addOrReplace id job.scheduleExpression with
    | (s, .ok _) => (s, some (arming jobs desiredIds))
    | (s, .error _) => (s, none)
  | arming [] desiredIds => (s, some (removing (s.agenda.keys.filter (· ∉ desiredIds))))
  | removing (id :: ids) => (removeIfArmed id s, some (removing ids))
  | removing [] => (s, none)

structure World (A : Apscheduler) where
  db : Database
  scheduler : CronScheduler A
  activities : Table ℕ Activity

inductive Action
  | request (op : Operation)
  | periodic
  | advance (k : ℕ)

def step (w : World A) : Action → Option (World A)
  | .request op =>
    match op.commit w.db with
    | .error _ => some w
    | .ok (db, n) =>
      some { w with
        db
        activities := (begun n).elim w.activities fun activity ↦ (w.activities.insert activity).2 }
  | .periodic => some { w with activities := (w.activities.insert .syncing).2 }
  | .advance k =>
    (w.activities.get? k).map fun activity ↦
      let (scheduler, rest) := activity.advance w.db w.scheduler
      { w with
        scheduler
        activities := rest.elim (w.activities.erase k) fun activity ↦ w.activities.set k activity }

def begin (A : Apscheduler) (db : Database) : World A := ⟨db, (boot A db).scheduler, .empty⟩

section Alone

variable {db : Database} {s : CronScheduler A} {activities : Table ℕ Activity} {k : ℕ}

theorem step_last {activity : Activity} (h : (activity.advance db s).2 = none) :
    step ⟨db, s, activities.set k activity⟩ (.advance k) =
      some ⟨db, (activity.advance db s).1, activities.erase k⟩ := by
  simp only [step, Table.get?_set_self, Option.map_some, h, Option.elim_none, Table.erase_set]

theorem step_next {activity rest : Activity} (h : (activity.advance db s).2 = some rest) :
    step ⟨db, s, activities.set k activity⟩ (.advance k) =
      some ⟨db, (activity.advance db s).1, activities.set k rest⟩ := by
  simp only [step, Table.get?_set_self, Option.map_some, h, Option.elim_some, Table.set_set]

theorem reaches_removing (ids : List ℕ) : ∀ s : CronScheduler A,
    Reaches step (.advance k) ⟨db, s, activities.set k (.removing ids)⟩
      ⟨db, { s with agenda := ids.foldl Table.erase s.agenda }, activities.erase k⟩ := by
  induction ids with
  | nil => exact fun s ↦ .single (step_last rfl)
  | cons id ids ih => exact fun s ↦ (ih (removeIfArmed id s)).head (step_next rfl)

theorem reaches_arming (desiredIds : List ℕ) (jobs : List (ℕ × CronJob)) : ∀ s : CronScheduler A,
    Reaches step (.advance k) ⟨db, s, activities.set k (.arming jobs desiredIds)⟩
      ⟨db, (match armAll jobs s.agenda with
        | (agenda, .error _) => { s with agenda }
        | (agenda, .ok ()) => { s with agenda := removeStale desiredIds agenda }),
          activities.erase k⟩ := by
  induction jobs with
  | nil => exact fun s ↦ (reaches_removing _ s).head (step_next rfl)
  | cons r jobs ih =>
    intro s
    obtain ⟨id, job⟩ := r
    cases hadd : Triggers.addOrReplace A s.agenda id job.scheduleExpression with
    | error e =>
      have hlast : ((Activity.arming ((id, job) :: jobs) desiredIds).advance db s) = (s, none) := by
        simp only [Activity.advance, CronScheduler.addOrReplace, hadd]
      have hstep :
          step ⟨db, s, activities.set k (.arming ((id, job) :: jobs) desiredIds)⟩ (.advance k) =
          some ⟨db, s, activities.erase k⟩ := by rw [step_last (congrArg Prod.snd hlast), hlast]
      simpa only [armAll, hadd] using Reaches.single hstep
    | ok r =>
      have hnext : ((Activity.arming ((id, job) :: jobs) desiredIds).advance db s) =
          ({ s with agenda := r.2 }, some (.arming jobs desiredIds)) := by
        simp only [Activity.advance, CronScheduler.addOrReplace, hadd]
      have hrest := (ih { s with agenda := r.2 }).head (hnext ▸ step_next (congrArg Prod.snd hnext))
      simpa only [armAll, hadd] using hrest

/-- The steps of a reconciliation that nothing comes between are `sync_from_db`. -/
theorem reaches_syncFromDb (hs : s.running) :
    Reaches step (.advance k) ⟨db, s, activities.set k .syncing⟩
      ⟨db, (syncFromDb db s).1, activities.erase k⟩ := by
  have hfirst : step ⟨db, s, activities.set k .syncing⟩ (.advance k) = some ⟨db, s, activities.set k
      (.arming db.listEligibleForScheduling (db.listEligibleForScheduling.map Prod.fst))⟩ := step_next rfl
  have hrest := (reaches_arming (db.listEligibleForScheduling.map Prod.fst) db.listEligibleForScheduling s).head
    hfirst
  rw [syncFromDb, if_pos hs]
  dsimp only
  split at hrest <;> simp_all only

/-- The steps of a notification of a change that nothing comes between are `add_or_replace_from_db`. -/
theorem reaches_addOrReplaceFromDb (id : ℕ) :
    Reaches step (.advance k) ⟨db, s, activities.set k (.reading id)⟩
      ⟨db, (addOrReplaceFromDb db id s).1, activities.erase k⟩ := by
  rw [addOrReplaceFromDb_eq]
  exact .head (step_next rfl) (.single (step_last rfl))

end Alone

def Activity.next? : Activity → Option (ℕ × Option Text)
  | writing id decision => some (id, decision)
  | arming ((id, job) :: _) _ => some (id, some job.scheduleExpression)
  | removing (id :: _) => some (id, none)
  | _ => none

/-- An activity that will still write the entry of a job, and as the database wants it now
if it has already read it. -/
def Refreshes (db : Database) (j : ℕ) : Activity → Prop
  | .reading id => j = id
  | .writing id decision => j = id ∧ decision = wanted db j
  | .syncing => True
  | .arming jobs desiredIds =>
    (∃ job, (j, job) ∈ jobs ∧ wanted db j = some job.scheduleExpression) ∨
      (j ∉ desiredIds ∧ wanted db j = none)
  | .removing ids => j ∈ ids ∧ wanted db j = none

/-- No activity writes the entry of a job from a read that is out of date, unless another
one is yet to refresh that entry. -/
def UpToDate (w : World A) : Action → Prop
  | .advance k => ∀ activity, w.activities.get? k = some activity →
      ∀ id decision, activity.next? = some (id, decision) → decision = wanted w.db id ∨
        ∃ k' ≠ k, ∃ other, w.activities.get? k' = some other ∧ Refreshes w.db id other
  | _ => True

def Armable (A : Apscheduler) (db : Database) : Prop :=
  ∀ id job, db.cronJobs.get? id = some job → (A.fromCrontab job.scheduleExpression).isSome

def Arms (A : Apscheduler) (x : Text) : Prop :=
  (∃ s : Schedule, x = s.text) ∧ (A.fromCrontab x).isSome

def Activity.Sound (A : Apscheduler) : Activity → Prop
  | writing _ decision => ∀ x, decision = some x → Arms A x
  | arming jobs _ => ∀ r ∈ jobs, Arms A r.2.scheduleExpression
  | _ => True

/-- The entry of each job is the wanted one, or an activity is yet to refresh it. -/
structure Converging (w : World A) : Prop where
  wellFormed : WellFormed w.db
  sound : ∀ k activity, w.activities.get? k = some activity → activity.Sound A
  entry : ∀ j, expressions w.scheduler.agenda j = wanted w.db j ∨
    ∃ k activity, w.activities.get? k = some activity ∧ Refreshes w.db j activity

theorem addOrReplace_arms {x : Text} (hx : Arms A x) (id : ℕ) (s : CronScheduler A) :
    ∃ agenda', s.addOrReplace id x = (⟨s.running, agenda'⟩, .ok true) ∧
      ∀ j, expressions agenda' j = if j = id then some x else expressions s.agenda j := by
  obtain ⟨⟨sched, rfl⟩, harms⟩ := hx
  obtain ⟨entry, hentry⟩ := Option.isSome_iff_exists.mp (armed?_isSome.mpr harms)
  refine ⟨s.agenda.set id entry, ?_, fun j ↦ ?_⟩
  · simp only [CronScheduler.addOrReplace, addOrReplace_eq (parse_text sched), hentry,
      Option.elim_some]
  · rw [expressions, Table.get?_set]
    split_ifs with hj
    · rw [Option.map_some, armed?_expression hentry]
    · rfl

theorem expressions_erase (agenda : Agenda A) (id j : ℕ) :
    expressions (agenda.erase id) j = if j = id then none else expressions agenda j := by
  rw [expressions, Table.get?_erase]
  split_ifs <;> rfl

section

variable {db : Database} {s : CronScheduler A} {activity : Activity}

theorem arms_wanted (hw : WellFormed db) (ha : Armable A db) {id : ℕ} {x : Text}
    (h : wanted db id = some x) : Arms A x := by
  obtain ⟨job, hjob, -, rfl⟩ := wanted_eq_some.mp h
  exact ⟨hw.expression id job hjob, ha id job hjob⟩

theorem expressions_advance (db : Database) (s : CronScheduler A) (hs : activity.Sound A) :
    (∃ id decision, activity.next? = some (id, decision) ∧ ∀ j,
      expressions (activity.advance db s).1.agenda j = if j = id then decision
        else expressions s.agenda j) ∨
    (activity.next? = none ∧ ∀ j,
      expressions (activity.advance db s).1.agenda j = expressions s.agenda j) := by
  match activity, hs with
  | .reading id, _ => exact .inr ⟨rfl, fun _ ↦ rfl⟩
  | .writing id none, _ => exact .inl ⟨id, none, rfl, expressions_erase s.agenda id⟩
  | .writing id (some x), hs =>
    obtain ⟨agenda', hadd, hget⟩ := addOrReplace_arms (hs x rfl) id s
    refine .inl ⟨id, some x, rfl, ?_⟩
    simpa only [Activity.advance, write, hadd] using hget
  | .syncing, _ => exact .inr ⟨rfl, fun _ ↦ rfl⟩
  | .arming ((id, job) :: jobs) desiredIds, hs =>
    obtain ⟨agenda', hadd, hget⟩ := addOrReplace_arms (hs (id, job) List.mem_cons_self) id s
    refine .inl ⟨id, some job.scheduleExpression, rfl, ?_⟩
    simpa only [Activity.advance, hadd] using hget
  | .arming [] desiredIds, _ => exact .inr ⟨rfl, fun _ ↦ rfl⟩
  | .removing (id :: ids), _ => exact .inl ⟨id, none, rfl, expressions_erase s.agenda id⟩
  | .removing [], _ => exact .inr ⟨rfl, fun _ ↦ rfl⟩

theorem sound_advance (hw : WellFormed db) (ha : Armable A db) (hs : activity.Sound A)
    {rest : Activity}
    (h : (activity.advance db s).2 = some rest) : rest.Sound A := by
  match activity, hs with
  | .reading id, _ =>
    cases h
    intro x hx
    rw [readJob_eq] at hx
    exact arms_wanted hw ha hx
  | .writing id decision, _ => cases h
  | .syncing, _ =>
    cases h
    intro r hr
    obtain ⟨hjob, -⟩ := mem_listEligible.mp hr
    exact ⟨hw.expression r.1 r.2 hjob, ha r.1 r.2 hjob⟩
  | .arming ((id, job) :: jobs) desiredIds, hs =>
    obtain ⟨agenda', hadd, -⟩ := addOrReplace_arms (hs (id, job) List.mem_cons_self) id s
    simp only [Activity.advance, hadd, Option.some.injEq] at h
    subst h
    exact fun r hr ↦ hs r (List.mem_cons_of_mem _ hr)
  | .arming [] desiredIds, _ =>
    cases h
    trivial
  | .removing (id :: ids), _ =>
    cases h
    trivial
  | .removing [], _ => cases h

theorem refreshes_advance (hs : activity.Sound A) {j : ℕ} (h : Refreshes db j activity) :
    expressions (activity.advance db s).1.agenda j = wanted db j ∨
      ∃ rest, (activity.advance db s).2 = some rest ∧ Refreshes db j rest := by
  match activity, hs, h with
  | .reading id, _, h =>
    obtain rfl : j = id := h
    exact .inr ⟨_, rfl, rfl, readJob_eq db j⟩
  | .writing id decision, hs, h =>
    obtain ⟨rfl, rfl⟩ := h
    refine .inl ?_
    obtain ⟨id, decision, he, hget⟩ | ⟨he, -⟩ := expressions_advance _ _ hs
    · cases he
      exact (hget j).trans (if_pos rfl)
    · cases he
  | .syncing, _, _ =>
    refine .inr ⟨_, rfl, ?_⟩
    cases hj : wanted db j with
    | none => exact .inr ⟨by simp [mem_eligible_iff, hj], hj⟩
    | some x =>
      obtain ⟨job, hjob, he, rfl⟩ := wanted_eq_some.mp hj
      exact .inl ⟨job, mem_listEligible.mpr ⟨hjob, he⟩, hj⟩
  | .arming ((id, job) :: jobs) desiredIds, hs, h =>
    obtain ⟨agenda', hadd, hget⟩ := addOrReplace_arms (hs (id, job) List.mem_cons_self) id s
    simp only [Activity.advance, hadd, hget]
    rcases h with ⟨job', hmem, hj⟩ | h
    · rcases List.mem_cons.mp hmem with he | hmem
      · obtain ⟨rfl, rfl⟩ := Prod.mk.inj he
        exact .inl (by rw [if_pos rfl, hj])
      · exact .inr ⟨_, rfl, .inl ⟨job', hmem, hj⟩⟩
    · exact .inr ⟨_, rfl, .inr h⟩
  | .arming [] desiredIds, _, h =>
    rcases h with ⟨job', hmem, -⟩ | ⟨hj, hnone⟩
    · cases hmem
    · by_cases hk : j ∈ s.agenda.keys
      · exact .inr ⟨_, rfl, List.mem_filter.mpr ⟨hk, by simpa using hj⟩, hnone⟩
      · refine .inl ?_
        have hget : s.agenda.get? j = none :=
          Option.eq_none_iff_forall_ne_some.mpr fun a ha ↦ hk (Table.mem_keys.mpr ⟨a, ha⟩)
        change expressions s.agenda j = wanted db j
        rw [hnone, expressions, hget]
        rfl
  | .removing (id :: ids), hs, h =>
    obtain ⟨hmem, hnone⟩ := h
    rcases List.mem_cons.mp hmem with rfl | hmem
    · exact .inl ((expressions_erase s.agenda j j).trans ((if_pos rfl).trans hnone.symm))
    · exact .inr ⟨_, rfl, hmem, hnone⟩
  | .removing [], _, h => cases h.1

end

theorem refreshes_congr {db db' : Database} {j : ℕ} (h : wanted db' j = wanted db j)
    {activity : Activity}
    (hr : Refreshes db j activity) : Refreshes db' j activity := by
  cases activity with
  | reading id => exact hr
  | writing id decision => exact ⟨hr.1, hr.2.trans h.symm⟩
  | syncing => trivial
  | arming jobs desiredIds =>
    unfold Refreshes
    rw [h]
    exact hr
  | removing ids => exact ⟨hr.1, h.trans hr.2⟩

theorem refreshes_begun {db db' : Database} {n : Notification} (he : Effect db db' n) {j : ℕ}
    (hj : Covers n j) : ∃ activity, begun n = some activity ∧ Refreshes db' j activity := by
  cases n with
  | jobChanged id => exact ⟨_, rfl, hj⟩
  | jobRemoved id =>
    obtain rfl : j = id := hj
    exact ⟨_, rfl, rfl, he.1.symm⟩
  | resync => exact ⟨_, rfl, trivial⟩
  | nothing => exact False.elim hj

theorem sound_begun {n : Notification} {activity : Activity} (h : begun n = some activity) :
    activity.Sound A := by
  cases n <;> cases h
  · trivial
  · exact fun x hx ↦ by cases hx
  · trivial

theorem get?_insert_of_some {activities : Table ℕ Activity} {k : ℕ} {a b : Activity}
    (h : activities.get? k = some a) : (activities.insert b).2.get? k = some a := by
  change (activities.set activities.nextId b).get? k = some a
  rw [Table.get?_set_ne _ _ (Table.lt_nextId h).ne, h]

theorem get?_insert_self (activities : Table ℕ Activity) (a : Activity) :
    (activities.insert a).2.get? activities.nextId = some a := Table.get?_set_self _ _ _

theorem sound_insert {activities : Table ℕ Activity} {new : Activity} (hnew : new.Sound A)
    (hs : ∀ k activity, activities.get? k = some activity → activity.Sound A) :
    ∀ k activity, (activities.insert new).2.get? k = some activity → activity.Sound A := by
  intro k activity hk
  change (activities.set activities.nextId new).get? k = some activity at hk
  rw [Table.get?_set] at hk
  split_ifs at hk
  · exact Option.some.inj hk ▸ hnew
  · exact hs k activity hk

theorem Converging.request {w : World A} (h : Converging w) {op : Operation} {db' : Database}
    {n : Notification} (hc : op.commit w.db = .ok (db', n)) :
    Converging { w with
      db := db'
      activities :=
        (begun n).elim w.activities fun activity ↦ (w.activities.insert activity).2 } := by
  obtain ⟨hw, he⟩ := commit_effect h.wellFormed hc
  have hkept : ∀ {k a}, w.activities.get? k = some a →
      ((begun n).elim w.activities fun activity ↦ (w.activities.insert activity).2).get? k =
        some a := by
    intro k a hk
    cases begun n with
    | none => exact hk
    | some new => exact get?_insert_of_some hk
  refine ⟨hw, ?_, fun j ↦ ?_⟩
  · cases hb : begun n with
    | none => exact h.sound
    | some new => exact sound_insert (sound_begun hb) h.sound
  · by_cases hj : Covers n j
    · obtain ⟨new, hb, hr⟩ := refreshes_begun he hj
      refine .inr ⟨w.activities.nextId, new, ?_, hr⟩
      rw [hb]
      exact get?_insert_self w.activities new
    · have hsame := wanted_of_not_covers he hj
      rcases h.entry j with hentry | ⟨k, a, hk, hr⟩
      · exact .inl (hentry.trans hsame.symm)
      · exact .inr ⟨k, a, hkept hk, refreshes_congr hsame hr⟩

theorem Converging.advance {w : World A} (h : Converging w) {k : ℕ} {activity : Activity}
    (hk : w.activities.get? k = some activity) (hup : UpToDate w (.advance k))
    (ha : Armable A w.db) :
    Converging { w with
      scheduler := (activity.advance w.db w.scheduler).1
      activities := (activity.advance w.db w.scheduler).2.elim (w.activities.erase k)
        fun activity ↦ w.activities.set k activity } := by
  have hsound := h.sound k activity hk
  have hother : ∀ {k' a}, k' ≠ k → w.activities.get? k' = some a →
      ((activity.advance w.db w.scheduler).2.elim (w.activities.erase k)
        fun activity ↦ w.activities.set k activity).get? k' = some a := by
    intro k' a hne hk'
    cases (activity.advance w.db w.scheduler).2 with
    | none => rw [Option.elim_none, Table.get?_erase, if_neg hne, hk']
    | some rest => rw [Option.elim_some, Table.get?_set_ne _ _ hne, hk']
  refine ⟨h.wellFormed, fun k' a hk' ↦ ?_, fun j ↦ ?_⟩
  · cases hrest : (activity.advance w.db w.scheduler).2 with
    | none =>
      rw [hrest, Option.elim_none, Table.get?_erase] at hk'
      split_ifs at hk'
      exact h.sound k' a hk'
    | some rest =>
      rw [hrest, Option.elim_some, Table.get?_set] at hk'
      split_ifs at hk'
      · exact Option.some.inj hk' ▸ sound_advance h.wellFormed ha hsound hrest
      · exact h.sound k' a hk'
  · rcases h.entry j with hentry | ⟨k₀, a, hk₀, hr⟩
    · rcases expressions_advance w.db w.scheduler hsound with
        ⟨id, decision, hnext, hget⟩ | ⟨-, hget⟩
      · rw [hget]
        split_ifs with hj
        · subst hj
          rcases hup activity hk j decision hnext with hd | ⟨k', hne, a, hk', hr⟩
          · exact .inl hd
          · exact .inr ⟨k', a, hother hne hk', hr⟩
        · exact .inl hentry
      · exact .inl ((hget j).trans hentry)
    · by_cases hne : k₀ = k
      · subst hne
        rw [hk] at hk₀
        cases hk₀
        rcases refreshes_advance (s := w.scheduler) hsound hr with hentry | ⟨rest, hrest, hr⟩
        · exact .inl hentry
        · refine .inr ⟨k₀, rest, ?_, hr⟩
          rw [hrest, Option.elim_some, Table.get?_set_self]
      · exact .inr ⟨k₀, a, hother hne hk₀, hr⟩

theorem Converging.step {w w' : World A} {a : Action} (h : Converging w)
    (hc : UpToDate w a ∧ Armable A w.db) (hstep : step w a = some w') : Converging w' := by
  cases a with
  | request op =>
    cases hcommit : op.commit w.db with
    | error e =>
      simp only [Concurrency.step, hcommit, Option.some.injEq] at hstep
      exact hstep ▸ h
    | ok r =>
      simp only [Concurrency.step, hcommit, Option.some.injEq] at hstep
      exact hstep ▸ h.request hcommit
  | periodic =>
    cases hstep
    refine ⟨h.wellFormed, sound_insert trivial h.sound,
      fun j ↦ .inr ⟨w.activities.nextId, .syncing, ?_, trivial⟩⟩
    exact get?_insert_self w.activities .syncing
  | advance k =>
    obtain ⟨activity, hk, rfl⟩ := Option.map_eq_some_iff.mp hstep
    exact h.advance hk hc.1 hc.2

theorem converging_begin {db : Database} (hw : WellFormed db) (ha : Armable A db) :
    Converging (begin A db) := by
  refine ⟨hw, fun k activity hk ↦ (Option.some_ne_none _ hk.symm).elim, fun j ↦ .inl ?_⟩
  rw [expressions, begin, (inSync_boot hw).entry]
  change ((wanted db j).bind (armed? A)).map Armed.expression = wanted db j
  cases hj : wanted db j with
  | none => rfl
  | some x =>
    obtain ⟨-, harms⟩ := arms_wanted hw ha hj
    obtain ⟨entry, hentry⟩ := Option.isSome_iff_exists.mp (armed?_isSome.mpr harms)
    rw [Option.bind_some, hentry, Option.map_some, armed?_expression hentry]

/-- Once every notification and reconciliation that began has ended, the armed jobs are the
eligible ones under their current expressions. -/
def QuiescentAgrees (w : World A) : Prop :=
  (∀ k, w.activities.get? k = none) → ∀ j, expressions w.scheduler.agenda j = wanted w.db j

/-- Reconciliation converges in the runs in which no entry is written last from a read that
is out of date. -/
theorem reconciliation_converges {db : Database} (hw : WellFormed db) {as : List Action}
    (harm : Always step (fun w ↦ Armable A w.db) (begin A db) as)
    (hup : Guarded step UpToDate (begin A db) as) :
    Always step QuiescentAgrees (begin A db) as := by
  have hstart : Armable A db := by
    cases as with
    | nil => exact harm
    | cons a as => exact harm.1
  refine always_mono (P := Converging) (fun w h hquiet j ↦ ?_)
    (guarded_always (fun w a w' h hc hs ↦ h.step ⟨hc.1, hc.2.1⟩ hs) (converging_begin hw hstart) (guarded_and hup harm))
  rcases h.entry j with hentry | ⟨k, a, hk, -⟩
  · exact hentry
  · rw [hquiet k] at hk
    cases hk

instance (db : Database) : Decidable (Armable A db) :=
  decidable_of_iff (∀ r ∈ db.cronJobs.rows, (A.fromCrontab r.2.scheduleExpression).isSome)
    (by simp only [Armable, Prod.forall, Table.mem_rows])

def pause : Operation := .updateCronJobStatus ⟨1, 1, none⟩ 1 false

/-- The job is paused, and removed from the agenda, between the read of a reconciliation and
its first write. -/
def staleSync : List Action :=
  [.periodic, .advance 1, .request pause, .advance 2, .advance 1, .advance 1, .advance 1]

theorem stale_sync_arms_paused_job :
    Always step (fun w ↦ Armable apscheduler w.db) (begin apscheduler sample) staleSync ∧
      (∃ w, exec step (begin apscheduler sample) staleSync = some w ∧
        (∀ k, w.activities.get? k = none) ∧ wanted w.db 1 = none ∧
        expressions w.scheduler.agenda 1 = some "0 9 * * *".toList) ∧
      ¬Always step QuiescentAgrees (begin apscheduler sample) staleSync := by
  have hlast : ((exec step (begin apscheduler sample) staleSync).map fun w ↦
      (w.activities.rows.isEmpty, wanted w.db 1, expressions w.scheduler.agenda 1)) =
        some (true, none, some "0 9 * * *".toList) := by decide
  obtain ⟨w, hw, hdata⟩ := Option.map_eq_some_iff.mp hlast
  simp only [Prod.mk.injEq] at hdata
  obtain ⟨hrows, hwanted, harmed⟩ := hdata
  have hquiet : ∀ k, w.activities.get? k = none := fun k ↦ by
    rw [Table.get?, List.isEmpty_iff.mp hrows]
    rfl
  refine ⟨by decide, ⟨w, hw, hquiet, hwanted, harmed⟩, fun h ↦ ?_⟩
  have hagrees := h.last hw hquiet 1
  rw [hwanted, harmed] at hagrees
  cases hagrees

theorem reconciliation_converges_pause :
    Always step QuiescentAgrees (begin apscheduler sample) [.request pause, .advance 1] := by
  refine reconciliation_converges sample_wellFormed (by decide)
    ⟨trivial, fun w hw ↦ ⟨?_, fun _ _ ↦ trivial⟩⟩
  cases hw
  intro activity hk id decision hnext
  cases hk
  cases hnext
  exact .inl (by decide)

end CronPanel.Scheduler.Concurrency
