import CronPanel.Scheduler.Timetable

namespace CronPanel.Scheduler.Occurrences

open Library.Strings Library.Tables Library.Run Data.Records Data.Repositories Api.Operations
open Triggers Apscheduler Eligibility Timetable
open Agenda (Covers)

/-- The panel and its scheduler in time: `submitted` are the runs that ticks have handed to
`run_scheduled_job`, and every moment before `ticked` has been followed by a tick. -/
structure World (A : Apscheduler) where
  db : Database
  store : Store A
  clock : ℕ
  submitted : List (ℕ × ℕ)
  ticked : ℕ

inductive Action
  | elapse (d : ℕ)
  | tick
  | sync
  | edit (op : Operation)

variable {A : Apscheduler} (C : Calendar A) (misfireGrace : ℕ)

def step (w : World A) : Action → Option (World A)
  | .elapse d => some { w with clock := w.clock + d }
  | .tick =>
    some { w with
      store := advance C w.clock w.store
      submitted := w.submitted ++ submissions w.clock misfireGrace w.store
      ticked := w.clock + 1 }
  | .sync => some { w with store := (syncFromDb C w.clock w.db w.store).1 }
  | .edit op =>
    match op.commit w.db with
    | .error _ => some w
    | .ok (db, n) => some { w with db := db, store := deliver C w.clock db w.store n }

variable (entry : Armed A) (id : ℕ) (expression : Text)

structure JustArmed (w : World A) : Prop where
  wellFormed : WellFormed w.db
  armed : w.store.get? id = some ⟨entry, C.nextFireTime entry.trigger w.clock⟩
  ticked : w.ticked = w.clock
  fresh : ∀ t, w.clock ≤ t → (id, t) ∉ w.submitted

/-- An occurrence that no tick has followed yet. -/
def Unserved (w : World A) (t : ℕ) : Prop := w.ticked ≤ t ∧ C.occurs entry.trigger t

/-- The job is eligible with its expression, and at most one of its occurrences is waiting for a
tick, for no longer than the misfire grace time. -/
structure Regular (w : World A) : Prop where
  wanted : wanted w.db id = some expression
  timely : ∀ t ≤ w.clock, Unserved C entry w t → w.clock ≤ t + misfireGrace
  single : ∀ t ≤ w.clock, Unserved C entry w t → ∀ u ≤ w.clock, Unserved C entry w u → u = t

/-- Every occurrence from a moment on is submitted once, by the tick that follows it. -/
def ServedOnce (since : ℕ) (w : World A) : Prop :=
  ∀ t, since ≤ t → C.occurs entry.trigger t →
    w.submitted.count (id, t) = if t < w.ticked then 1 else 0

/-- The action sets the next run of the job again. -/
def Rearms (w : World A) : Action → Prop
  | .elapse _ | .tick => False
  | .sync => True
  | .edit op => ∃ r ∈ (op.commit w.db).toOption, Covers r.2 id

/-- An occurrence that is past waits for its tick, or the present one has had it. -/
def Displaced (w : World A) : Prop :=
  (∃ t < w.clock, Unserved C entry w t) ∨ (w.clock < w.ticked ∧ C.occurs entry.trigger w.clock)

section

variable [∀ trigger t, Decidable (C.occurs trigger t)]

instance (w : World A) (t : ℕ) : Decidable (Unserved C entry w t) :=
  inferInstanceAs (Decidable (w.ticked ≤ t ∧ C.occurs entry.trigger t))

instance (w : World A) : Decidable (Regular C misfireGrace entry id expression w) :=
  decidable_of_iff (wanted w.db id = some expression ∧
    (∀ t ≤ w.clock, Unserved C entry w t → w.clock ≤ t + misfireGrace) ∧
    ∀ t ≤ w.clock, Unserved C entry w t → ∀ u ≤ w.clock, Unserved C entry w u → u = t)
    ⟨fun h ↦ ⟨h.1, h.2.1, h.2.2⟩, fun h ↦ ⟨h.wanted, h.timely, h.single⟩⟩

instance (w : World A) : ∀ a, Decidable (Rearms id w a)
  | .elapse _ | .tick => inferInstanceAs (Decidable False)
  | .sync => inferInstanceAs (Decidable True)
  | .edit op => inferInstanceAs (Decidable (∃ r ∈ (op.commit w.db).toOption, Covers r.2 id))

instance (w : World A) : Decidable (Displaced C entry w) :=
  inferInstanceAs (Decidable ((∃ t < w.clock, Unserved C entry w t) ∨
    (w.clock < w.ticked ∧ C.occurs entry.trigger w.clock)))

end

/-- The job store is on time: the next run of the job is its first occurrence that no tick has followed. -/
structure OnTime (since : ℕ) (w : World A) : Prop where
  wellFormed : WellFormed w.db
  since_le : since ≤ w.ticked ∧ since ≤ w.clock
  ticked_le : w.ticked ≤ w.clock + 1
  entries : ∀ job, w.store.get? id = some job → job.entry = entry
  pending : (w.store.get? id).bind ScheduledJob.nextRunTime = C.nextFireTime entry.trigger w.ticked
  served : ServedOnce C entry id since w

variable {C misfireGrace entry id expression} {since : ℕ} {w w' : World A}

theorem JustArmed.onTime (h : JustArmed C entry id w) : OnTime C entry id w.clock w where
  wellFormed := h.wellFormed
  since_le := ⟨h.ticked.ge, le_rfl⟩
  ticked_le := by rw [h.ticked]; omega
  entries job hjob := by
    rw [h.armed] at hjob
    rw [← Option.some.inj hjob]
  pending := by rw [h.armed, h.ticked, Option.bind_some]
  served t hle _ := by
    rw [List.count_eq_zero_of_not_mem (h.fresh t hle), if_neg]
    rw [h.ticked]
    omega

/-- To set the next run again is harmless where no occurrence is displaced. -/
theorem OnTime.rearm (hC : C.Documented) (h : OnTime C entry id since w) (hd : ¬Displaced C entry w)
    (hw : WellFormed w'.db) (hclock : w'.clock = w.clock) (hticked : w'.ticked = w.ticked)
    (hsubmitted : w'.submitted = w.submitted)
    (hget : w'.store.get? id = some ⟨entry, C.nextFireTime entry.trigger w.clock⟩) :
    OnTime C entry id since w' where
  wellFormed := hw
  since_le := by rw [hclock, hticked]; exact h.since_le
  ticked_le := by rw [hclock, hticked]; exact h.ticked_le
  entries job hjob := by
    rw [hget] at hjob
    rw [← Option.some.inj hjob]
  pending := by
    rw [hget, hticked, Option.bind_some]
    refine hC.next_congr fun t ht ↦ ⟨fun hle ↦ ?_, fun hle ↦ ?_⟩
    · by_contra hlt
      have hle' := h.ticked_le
      have heq : t = w.clock := by omega
      exact hd (.inr ⟨by omega, heq ▸ ht⟩)
    · by_contra hlt
      exact hd (.inl ⟨t, by omega, hle, ht⟩)
  served := by
    unfold ServedOnce
    rw [hsubmitted, hticked]
    exact h.served

theorem OnTime.tick (hC : C.Documented) (h : OnTime C entry id since w)
    (hr : Regular C misfireGrace entry id expression w)
    (hs : step C misfireGrace w .tick = some w') :
    OnTime C entry id since w' := by
  cases hs
  have hpending {t : ℕ} := hC.next entry.trigger w.ticked t
  refine ⟨h.wellFormed, ⟨by have := h.since_le; dsimp only; omega, h.since_le.2⟩,
    le_rfl, ?_, ?_, ?_⟩
  · intro job hjob
    obtain ⟨old, hold, heq⟩ := entry_of_advance hjob
    rw [heq, h.entries old hold]
  · exact nextRunTime_advance hC h.ticked_le (fun job hjob ↦ by rw [h.entries job hjob]) h.pending
  · intro t hle ht
    dsimp only
    rw [List.count_append, count_submissions, h.served t hle ht, h.pending]
    by_cases hbefore : t < w.ticked
    · have hnot : ¬C.nextFireTime entry.trigger w.ticked = some t := fun hn ↦ by
        have := (hpending.mp hn).1.1
        omega
      have := h.ticked_le
      rw [if_pos hbefore, if_neg (fun hx ↦ hnot hx.1), if_pos (by omega)]
    · by_cases hafter : w.clock < t
      · rw [if_neg hbefore, if_neg (by omega), if_neg (by omega)]
      · obtain ⟨u, hu, hfirst⟩ := hC.exists_next (not_lt.mp hbefore) ht
        have hocc := (hpending.mp hfirst).1
        have hwaits : Unserved C entry w t := ⟨not_lt.mp hbefore, ht⟩
        have heq : u = t := hr.single t (not_lt.mp hafter) hwaits u (by omega) hocc
        have hgrace := hr.timely t (not_lt.mp hafter) hwaits
        rw [if_neg hbefore, if_pos ⟨heq ▸ hfirst, by omega, hgrace⟩, if_pos (by omega)]

theorem rearmed_of_armed {old : Option (ScheduledJob A)} {now : ℕ}
    (h : armed? A expression = some entry) :
    rearmed C now expression old = some ⟨entry, C.nextFireTime entry.trigger now⟩ := by
  rw [rearmed, scheduled, h, Option.map_some, Option.some_or]

theorem OnTime.step (hC : C.Documented) (harmed : armed? A expression = some entry)
    (h : OnTime C entry id since w) {a : Action} (hd : ¬(Rearms id w a ∧ Displaced C entry w))
    (hr : Regular C misfireGrace entry id expression w) (hs : step C misfireGrace w a = some w')
    (hr' : Regular C misfireGrace entry id expression w') : OnTime C entry id since w' := by
  cases a with
  | elapse d =>
    cases hs
    obtain ⟨hticked, hclock⟩ := h.since_le
    have hle := h.ticked_le
    exact { h with
      since_le := ⟨hticked, by dsimp only; omega⟩
      ticked_le := by dsimp only; omega }
  | tick => exact h.tick hC hr hs
  | sync =>
    cases hs
    refine h.rearm hC (fun hx ↦ hd ⟨trivial, hx⟩) h.wellFormed rfl rfl rfl ?_
    rw [syncFromDb_spec C w.clock h.wellFormed, hr.wanted, Option.bind_some,
      rearmed_of_armed harmed]
  | edit op =>
    rw [Occurrences.step] at hs
    cases hc : op.commit w.db with
    | error e =>
      rw [hc] at hs
      cases hs
      exact h
    | ok r =>
      obtain ⟨db, n⟩ := r
      rw [hc] at hs
      cases hs
      obtain ⟨hw, he⟩ := commit_effect h.wellFormed hc
      have hget := deliver_spec C w.clock hw he w.store id
      by_cases hcovers : Covers n id
      · have hnot : ¬Displaced C entry w := fun hx ↦ hd ⟨⟨(db, n), by rw [hc]; rfl, hcovers⟩, hx⟩
        refine h.rearm hC hnot hw rfl rfl rfl ?_
        rw [hget, if_pos hcovers, hr'.wanted, Option.bind_some, rearmed_of_armed harmed]
      · rw [if_neg hcovers] at hget
        refine ⟨hw, h.since_le, h.ticked_le, ?_, ?_, h.served⟩
        · intro job hjob
          exact h.entries job (hget ▸ hjob)
        · rw [hget]
          exact h.pending

/-- Every occurrence of a job is submitted once, where no reconciliation comes between an
occurrence and its tick. -/
theorem served_once_of_not_displaced (hC : C.Documented) (harmed : armed? A expression = some entry)
    (hw : JustArmed C entry id w) {run : List Action}
    (hregular : Always (step C misfireGrace) (Regular C misfireGrace entry id expression) w run)
    (hguard : Guarded (step C misfireGrace) (fun w a ↦ ¬(Rearms id w a ∧ Displaced C entry w)) w run) :
    Always (step C misfireGrace) (ServedOnce C entry id w.clock) w run := by
  have hkeep : Always (step C misfireGrace) (OnTime C entry id w.clock) w run :=
    guarded_always (fun w a w' h hc hs ↦ h.step hC harmed hc.1 hc.2.1 hs (hc.2.2 w' hs)) hw.onTime
      (guarded_and hguard hregular)
  exact always_mono (fun w h ↦ h.served) hkeep

/-- A reconciliation where an occurrence is displaced is one too many: after the next tick an
occurrence has been submitted twice, or not at all. -/
theorem not_servedOnce_of_displaced (hC : C.Documented) (harmed : armed? A expression = some entry)
    (h : OnTime C entry id since w) (hwanted : wanted w.db id = some expression)
    (hd : Displaced C entry w)
    (hexec : exec (step C misfireGrace) w [.sync, .tick] = some w') :
    ¬ServedOnce C entry id since w' := by
  cases hexec
  intro hserved
  have hle := h.since_le
  have hstore := syncFromDb_spec C w.clock h.wellFormed w.store id
  rw [hwanted, Option.bind_some, rearmed_of_armed harmed] at hstore
  have hcount (t : ℕ) :=
      count_submissions w.clock misfireGrace (syncFromDb C w.clock w.db w.store).1 id t
  simp only [hstore, Option.bind_some] at hcount
  rcases hd with ⟨t, hlt, hwaits, ht⟩ | ⟨hlt, ht⟩
  · have hold := h.served t (by omega) ht
    have hnew := hserved t (by omega) ht
    dsimp only at hnew
    have hmissed : ¬C.nextFireTime entry.trigger w.clock = some t := fun hn ↦ by
      have := ((hC.next ..).mp hn).1.1
      omega
    rw [List.count_append, hold, hcount, if_neg (by omega), if_neg (fun hx ↦ hmissed hx.1),
      if_pos (by omega)] at hnew
    omega
  · have hold := h.served w.clock hle.2 ht
    have hnew := hserved w.clock hle.2 ht
    dsimp only at hnew
    have hagain : C.nextFireTime entry.trigger w.clock = some w.clock :=
      (hC.next ..).mpr ⟨⟨le_rfl, ht⟩, fun u hu ↦ hu.1⟩
    rw [List.count_append, hold, hcount, if_pos hlt, if_pos ⟨hagain, le_rfl, by omega⟩,
      if_pos (by omega)] at hnew
    omega

section Sample

/-- The calendar of a job that runs every minute; the clock is in seconds. -/
def everyMinute : Calendar apscheduler where
  occurs _ t := t % 60 = 0
  nextFireTime _ now := some ((now + 59) / 60 * 60)

instance (trigger : apscheduler.Trigger) (t : ℕ) : Decidable (everyMinute.occurs trigger t) :=
  inferInstanceAs (Decidable (t % 60 = 0))

theorem everyMinute_documented : everyMinute.Documented where
  next trigger now t := by
    have hleast : IsLeast {t | now ≤ t ∧ t % 60 = 0} ((now + 59) / 60 * 60) := by
      refine ⟨⟨by omega, by omega⟩, fun u hu ↦ ?_⟩
      obtain ⟨hle, hmod⟩ := hu
      omega
    constructor
    · intro hn
      obtain rfl := Option.some.inj hn
      exact hleast
    · intro hn
      exact congrArg some (hleast.unique hn)

def sampleExpression : Text := "* * * * *".toList

def sampleJob : CronJob :=
  { Eligibility.sampleJob with
    scheduleExpression := sampleExpression
    minute := ['*']
    hour := ['*'] }

def sampleDatabase : Database :=
  { Eligibility.sample with cronJobs := Eligibility.sample.cronJobs.set 1 sampleJob }

theorem sampleDatabase_wellFormed : WellFormed sampleDatabase := by
  refine sample_wellFormed.set_job rfl rfl ?_ ?_
  · have hp : Cron.Validator.parseCronExpression (some sampleExpression) =
      .ok [['*'], ['*'], ['*'], ['*'], ['*']] := by
      decide
    obtain ⟨s, hs⟩ := Cron.Grammar.parse_ok hp
    exact ⟨s, congrArg [' '].intercalate hs⟩
  · intro k hk
    exact sample_wellFormed.reference 1 Eligibility.sampleJob k rfl hk

def sampleEntry : Armed apscheduler := (armed? apscheduler sampleExpression).get (by decide)

theorem armed_sampleEntry :
    armed? apscheduler sampleExpression = some sampleEntry := (Option.some_get _).symm

/-- The scheduler half a minute after midnight, just started. -/
def sample : World apscheduler where
  db := sampleDatabase
  store := (syncFromDb everyMinute 30 sampleDatabase Table.empty).1
  clock := 30
  submitted := []
  ticked := 30

theorem sample_justArmed : JustArmed everyMinute sampleEntry 1 sample where
  wellFormed := sampleDatabase_wellFormed
  armed := by
    have hwanted : wanted sampleDatabase 1 = some sampleExpression := by decide
    change (syncFromDb everyMinute 30 sampleDatabase Table.empty).1.get? 1 = _
    rw [syncFromDb_spec everyMinute 30 sampleDatabase_wellFormed, hwanted, Option.bind_some,
      rearmed_of_armed armed_sampleEntry]
    rfl
  ticked := rfl
  fresh _ _ := List.not_mem_nil

/-- Each reconciliation comes after the tick. -/
def sampleRun : List Action := [.elapse 31, .tick, .elapse 20, .sync, .elapse 40, .tick, .sync]

theorem served_once_sampleRun :
    Always (step everyMinute 90) (ServedOnce everyMinute sampleEntry 1 30) sample sampleRun :=
  have hregular : Always (step everyMinute 90) (Regular everyMinute 90 sampleEntry 1 sampleExpression) sample sampleRun := by
    decide +kernel
  served_once_of_not_displaced everyMinute_documented armed_sampleEntry sample_justArmed hregular
    (by decide +kernel)

/-- A reconciliation between the minute and its tick: the run of that minute is lost. -/
theorem sync_before_tick_loses_run :
    ∃ run : List Action, everyMinute.Documented ∧
      armed? apscheduler sampleExpression = some sampleEntry ∧
      JustArmed everyMinute sampleEntry 1 sample ∧
      Always (step everyMinute 90) (Regular everyMinute 90 sampleEntry 1 sampleExpression) sample run ∧
      ¬Always (step everyMinute 90) (ServedOnce everyMinute sampleEntry 1 sample.clock) sample run := by
  refine ⟨[.elapse 31, .sync, .tick], everyMinute_documented, armed_sampleEntry, sample_justArmed,
    by decide +kernel, ?_⟩
  intro h
  have hlast : (exec (step everyMinute 90) sample [.elapse 31, .sync, .tick]).map
      (fun w ↦ (w.submitted, w.ticked)) = some ([], 62) := by decide +kernel
  obtain ⟨w, hw, hdata⟩ := Option.map_eq_some_iff.mp hlast
  obtain ⟨hsubmitted, hticked⟩ := Prod.mk.inj hdata
  have hserved := h.last hw 60 (by decide) rfl
  rw [hsubmitted, hticked] at hserved
  exact absurd hserved (by decide)

end Sample

end CronPanel.Scheduler.Occurrences
