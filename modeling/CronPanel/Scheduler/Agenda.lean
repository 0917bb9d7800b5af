import CronPanel.Library.Run
import CronPanel.Scheduler.Apscheduler
import CronPanel.Scheduler.Eligibility

namespace CronPanel.Scheduler.Agenda

open Library.Strings Library.Tables Library.Fallible Library.Run
open Data.Records Data.Repositories Data.Repositories.Database Cron.Validator Cron.Elements Cron.Grammar
open Schemas.Bodies Services.CronJobs Api.Errors Api.Operations Triggers Apscheduler Service Eligibility

variable {A : Apscheduler}

/-- The entry of a job after it is armed again: an expression that cannot be armed
leaves the old entry where it was. -/
def refreshed (want : Option Text) (old : Option (Armed A)) : Option (Armed A) :=
  want.bind fun x ↦ (armed? A x).or old

@[simp] theorem refreshed_none (old : Option (Armed A)) : refreshed none old = none := rfl

theorem addOrReplace_text (s : Schedule) (agenda : Agenda A) (id : ℕ) :
    ∃ armed, addOrReplace A agenda id s.text =
      .ok (armed, (armed? A s.text).elim agenda (agenda.set id)) := by
  rw [addOrReplace_eq (parse_text s)]
  cases armed? A s.text with
  | none => exact ⟨false, rfl⟩
  | some entry => exact ⟨true, rfl⟩

theorem armAll_eq {jobs : List (ℕ × CronJob)}
    (hexpr : ∀ r ∈ jobs, ∃ s : Schedule, r.2.scheduleExpression = s.text) (agenda : Agenda A) :
    armAll jobs agenda =
      (jobs.foldl (fun agenda r ↦ (armed? A r.2.scheduleExpression).elim agenda (agenda.set r.1)) agenda, .ok ()) := by
  induction jobs generalizing agenda with
  | nil => rfl
  | cons r jobs ih =>
    obtain ⟨s, hs⟩ := hexpr r List.mem_cons_self
    obtain ⟨armed, hadd⟩ := addOrReplace_text s agenda r.1
    have hrest := ih (fun q hq ↦ hexpr q (List.mem_cons_of_mem _ hq))
    simp only [armAll, hs, hadd, hrest, List.foldl_cons]

theorem get?_removeStale (desired : List ℕ) (agenda : Agenda A) (j : ℕ) :
    (removeStale desired agenda).get? j = if j ∈ desired then agenda.get? j else none :=
  Table.get?_erase_unlisted desired agenda j

section

variable {db : Database}

theorem nodup_eligible (db : Database) : (db.listEligibleForScheduling.map Prod.fst).Nodup := by
  have hlt : (db.listEligibleForScheduling.map Prod.fst).Pairwise (· < ·) :=
    List.pairwise_map.mpr (db.cronJobs.sorted.filter _)
  exact hlt.imp fun h ↦ h.ne

theorem mem_eligible_iff {id : ℕ} :
    id ∈ db.listEligibleForScheduling.map Prod.fst ↔ (wanted db id).isSome := by
  rw [Option.isSome_iff_exists]
  simp only [List.mem_map, Prod.exists, exists_and_right, exists_eq_right, mem_listEligible,
    wanted_eq_some]
  constructor
  · intro hin
    obtain ⟨job, hjob, he⟩ := hin
    exact ⟨_, job, hjob, he, rfl⟩
  · intro hin
    obtain ⟨x, job, hjob, he, -⟩ := hin
    exact ⟨job, hjob, he⟩

/-- A reconciliation arms every eligible job again and drops the others. -/
theorem syncFromDb_spec (hw : WellFormed db) {s : CronScheduler A} (hr : s.running) :
    ∃ agenda', syncFromDb db s = (⟨true, agenda'⟩, .ok db.listEligibleForScheduling.length) ∧
      ∀ j, agenda'.get? j = refreshed (wanted db j) (s.agenda.get? j) := by
  have hexpr :
      ∀ r ∈ db.listEligibleForScheduling, ∃ s : Schedule, r.2.scheduleExpression = s.text :=
    fun r hm ↦ hw.expression r.1 r.2 (mem_listEligible.mp hm).1
  obtain ⟨hmem, -⟩ :=
    Table.get?_foldl_set Prod.fst (fun r ↦ armed? A r.2.scheduleExpression)
      (nodup_eligible db) s.agenda
  simp only [syncFromDb, hr, if_true, armAll_eq hexpr]
  refine ⟨_, rfl, fun j ↦ ?_⟩
  rw [get?_removeStale]
  simp only [mem_eligible_iff]
  cases hj : wanted db j with
  | none => rfl
  | some x =>
    obtain ⟨job, hjob, he, rfl⟩ := wanted_eq_some.mp hj
    exact hmem (j, job) (mem_listEligible.mpr ⟨hjob, he⟩)

theorem liveJob_of_wanted {id : ℕ} {x : Text} (h : wanted db id = some x) :
    ∃ job, db.liveJob id = some job ∧ job.isActive ∧ job.scheduleExpression = x ∧
      id ∈ db.listEligibleForScheduling.map Prod.fst := by
  obtain ⟨job, hjob, he, hx⟩ := wanted_eq_some.mp h
  obtain ⟨hlive, hactive, -⟩ := eligible_iff.mp he
  exact ⟨job, liveJob_eq_some.mpr ⟨hjob, hlive⟩, hactive, hx, mem_eligible_iff.mpr (by simp [h])⟩

theorem addOrReplaceFromDb_spec (hw : WellFormed db) (id : ℕ) (s : CronScheduler A) :
    ∃ agenda' armed, addOrReplaceFromDb db id s = (⟨s.running, agenda'⟩, .ok armed) ∧
      ∀ j, agenda'.get? j =
        if j = id then refreshed (wanted db id) (s.agenda.get? id) else s.agenda.get? j := by
  unfold addOrReplaceFromDb
  cases hx : wanted db id with
  | none =>
    have hmem : id ∉ db.listEligibleForScheduling.map Prod.fst := by simp [mem_eligible_iff, hx]
    have hremove (j : ℕ) : (s.agenda.erase id).get? j =
        if j = id then refreshed none (s.agenda.get? id) else s.agenda.get? j :=
          Table.get?_erase _ _ _
    split
    · exact ⟨_, false, rfl, hremove⟩
    · split_ifs
      · exact ⟨_, false, rfl, hremove⟩
      · exact ⟨_, false, rfl, hremove⟩
  | some x =>
    obtain ⟨job, hlive, hactive, rfl, hmem⟩ := liveJob_of_wanted hx
    obtain ⟨sched, hs⟩ := wanted_schedule hw hx
    obtain ⟨armed, hadd⟩ := addOrReplace_text sched s.agenda id
    rw [hlive]
    simp only [hactive, Bool.not_true, Bool.false_eq_true, if_false, if_neg (not_not.mpr hmem),
      CronScheduler.addOrReplace, hs, hadd]
    refine ⟨_, armed, rfl, fun j ↦ ?_⟩
    rw [Table.get?_elim_set, refreshed, Option.bind_some]
    split_ifs with hj
    · rw [hj]
    · rfl

end

/-- The jobs whose entry a notification brings up to date. -/
def Covers : Notification → ℕ → Prop
  | .jobChanged id, j | .jobRemoved id, j => j = id
  | .resync, _ => True
  | .nothing, _ => False

instance (n : Notification) (j : ℕ) : Decidable (Covers n j) := by
  cases n <;> unfold Covers <;> infer_instance

theorem wanted_of_not_covers {db db' : Database} {n : Notification} (h : Effect db db' n) {j : ℕ}
    (hj : ¬Covers n j) : wanted db' j = wanted db j := by
  cases n with
  | jobChanged id => exact h j hj
  | jobRemoved id => exact h.2 j hj
  | resync => exact absurd trivial hj
  | nothing => exact h j

theorem deliver_spec {db db' : Database} (hw : WellFormed db') {n : Notification}
    (he : Effect db db' n)
    {s : CronScheduler A} (hr : s.running) :
    ∃ agenda', n.deliver db' s = (⟨true, agenda'⟩, .ok ()) ∧
      ∀ j, agenda'.get? j =
        if Covers n j then refreshed (wanted db' j) (s.agenda.get? j) else s.agenda.get? j := by
  cases n with
  | jobChanged id =>
    obtain ⟨agenda', armed, hadd, hget⟩ := addOrReplaceFromDb_spec hw id s
    refine ⟨agenda', ?_, fun j ↦ ?_⟩
    · simp only [Notification.deliver, notifyJobChanged, hr, if_true, hadd]
      rfl
    · rw [hget]
      by_cases hj : j = id
      · simp only [hj, Covers, if_true]
      · simp only [hj, Covers, if_false]
  | jobRemoved id =>
    refine ⟨s.agenda.erase id, ?_, fun j ↦ ?_⟩
    · simp only [Notification.deliver, notifyJobRemoved, hr, if_true, removeIfArmed]
    · rw [Table.get?_erase]
      by_cases hj : j = id
      · simp only [hj, Covers, if_true, he.1, refreshed_none]
      · simp only [hj, Covers, if_false]
  | resync =>
    obtain ⟨agenda', hsync, hget⟩ := syncFromDb_spec hw hr
    refine ⟨agenda', ?_, fun j ↦ ?_⟩
    · simp only [Notification.deliver, resync, hr, if_true, hsync]
      rfl
    · rw [hget, if_pos (show Covers .resync j from trivial)]
  | nothing =>
    refine ⟨s.agenda, ?_, fun j ↦ (if_neg (fun h : Covers .nothing j ↦ h)).symm⟩
    simp only [Notification.deliver, ← hr]

structure Panel (A : Apscheduler) where
  db : Database
  scheduler : CronScheduler A

def boot (A : Apscheduler) (db : Database) : Panel A := ⟨db, start db .new⟩

inductive Action
  | request (op : Operation)
  | sync

def serve (op : Operation) (p : Panel A) : Panel A :=
  match op.commit p.db with
  | .error _ => p
  | .ok (db, n) => ⟨db, (n.deliver db p.scheduler).1⟩

def step (p : Panel A) : Action → Option (Panel A)
  | .request op => some (serve op p)
  | .sync => some { p with scheduler := (syncFromDb p.db p.scheduler).1 }

def expressions (agenda : Agenda A) (id : ℕ) : Option Text := (agenda.get? id).map Armed.expression

/-- The live agenda is the one a restart would arm. -/
def Agrees (p : Panel A) : Prop :=
  ∀ id, expressions p.scheduler.agenda id = expressions (boot A p.db).scheduler.agenda id

/-- An update is granted that gives an armed job an expression the scheduling library does
not accept, and that leaves the job with an enabled script. -/
def Disarming (p : Panel A) : Action → Prop
  | .request (.updateCronJob sender id body) =>
    (p.scheduler.agenda.get? id).isSome ∧ Succeeds
      (Api.CronJobs.updateCronJob sender id body p.db) ∧
      (∃ x n, body.scheduleExpression = some x ∧ normalizeCronExpression (some x) = .ok n ∧
        A.fromCrontab n = none) ∧
      ∀ k script, body.scriptId = some k → p.db.scripts.get? k = some script → script.isEnabled
  | _ => False

/-- The scheduler runs, and each job is armed with its expression where that can be armed. -/
structure InSync (p : Panel A) : Prop where
  wellFormed : WellFormed p.db
  running : p.scheduler.running
  entry : ∀ j, p.scheduler.agenda.get? j = (wanted p.db j).bind (armed? A)

theorem inSync_boot {db : Database} (hw : WellFormed db) : InSync (boot A db) := by
  obtain ⟨agenda', hsync, hget⟩ := syncFromDb_spec (A := A) hw (s := ⟨true, .empty⟩) rfl
  have hstart : (boot A db).scheduler = ⟨true, agenda'⟩ := by
    simp only [boot, start, CronScheduler.new, Bool.false_eq_true, if_false, hsync]
  refine ⟨hw, by rw [hstart], fun j ↦ ?_⟩
  rw [hstart, hget, boot]
  cases wanted db j <;> simp [refreshed]

theorem InSync.agrees_iff {p : Panel A} (hw : WellFormed p.db) :
    Agrees p ↔ ∀ j, expressions p.scheduler.agenda j =
      ((wanted p.db j).bind (armed? A)).map Armed.expression :=
  forall_congr' fun j ↦ by rw [expressions, expressions, (inSync_boot hw).entry]; rfl

theorem InSync.agrees {p : Panel A} (h : InSync p) : Agrees p :=
  (InSync.agrees_iff h.wellFormed).mpr fun j ↦ by rw [expressions, h.entry]

theorem refreshed_eq {want : Option Text} {old : Option (Armed A)}
    (h : ∀ x, want = some x → armed? A x = none → old = none) :
    refreshed want old = want.bind (armed? A) := by
  cases want with
  | none => rfl
  | some x =>
    cases hx : armed? A x with
    | none => simp [refreshed, hx, h x rfl hx]
    | some entry => simp [refreshed, hx]

theorem serve_spec {p : Panel A} (h : InSync p) (op : Operation) :
    (∃ e, op.commit p.db = .error e ∧ serve op p = p) ∨
      ∃ db n agenda', op.commit p.db = .ok (db, n) ∧ serve op p = ⟨db, ⟨true, agenda'⟩⟩ ∧
        WellFormed db ∧ Effect p.db db n ∧ ∀ j, agenda'.get? j =
          if Covers n j then refreshed (wanted db j) (p.scheduler.agenda.get? j)
          else p.scheduler.agenda.get? j := by
  cases hc : op.commit p.db with
  | error e => exact .inl ⟨e, rfl, by simp only [serve, hc]⟩
  | ok r =>
    obtain ⟨db, n⟩ := r
    obtain ⟨hw, he⟩ := commit_effect h.wellFormed hc
    obtain ⟨agenda', hd, hget⟩ := deliver_spec hw he h.running
    exact .inr ⟨db, n, agenda', rfl, by simp only [serve, hc, hd], hw, he, hget⟩

theorem expression_changed {db db' : Database} (hw : WellFormed db) {op : Operation}
    {n : Notification}
    (h : op.commit db = .ok (db', n)) {j : ℕ} (hj : Covers n j) {x y : Text}
    (hx : wanted db j = some x)
    (hy : wanted db' j = some y) (hne : x ≠ y) :
    ∃ sender body, op = .updateCronJob sender j body ∧
      Api.CronJobs.updateCronJob sender j body db = .ok db' := by
  cases op with
  | createCronJob sender body =>
    obtain ⟨⟨id, db₁⟩, hc, h⟩ := bind_eq_ok.mp h
    cases h
    obtain rfl : j = id := hj
    obtain ⟨s, -, -, rfl, -⟩ := createCronJob_commit hc
    obtain ⟨job, hjob, -⟩ := wanted_eq_some.mp hx
    rw [Table.get?_nextId] at hjob
    cases hjob
  | updateCronJob sender id body =>
    obtain ⟨db₁, hc, h⟩ := bind_eq_ok.mp h
    cases h
    obtain rfl : j = id := hj
    exact ⟨sender, body, rfl, hc⟩
  | updateCronJobStatus sender id isActive =>
    obtain ⟨db₁, hc, h⟩ := bind_eq_ok.mp h
    cases h
    obtain rfl : j = id := by cases isActive <;> exact hj
    obtain ⟨call, -, hc⟩ := bind_eq_ok.mp hc
    obtain ⟨hscripts, job, stored, hlive, hset, -, -, -, hexpr⟩ :=
      updateCronJobStatus_ok (mapError_eq_ok.mp hc)
    obtain ⟨job', hjob', -, rfl⟩ := wanted_eq_some.mp hx
    rw [(liveJob_eq_some.mp hlive).1] at hjob'
    cases hjob'
    rw [(wanted_set hscripts hset).1] at hy
    split_ifs at hy
    exact absurd (hexpr.symm.trans (Option.some.inj hy)) hne
  | deleteCronJob sender id =>
    obtain ⟨db₁, hc, h⟩ := bind_eq_ok.mp h
    cases h
    obtain rfl : j = id := hj
    have hn := (deleteCronJob_effect hw hc).2.1
    rw [hn] at hy
    cases hy
  | createScript sender host body =>
    obtain ⟨⟨id, db₁⟩, hc, h⟩ := bind_eq_ok.mp h
    cases h
    exact False.elim hj
  | updateScript sender host id body =>
    obtain ⟨db₁, hc, h⟩ := bind_eq_ok.mp h
    cases h
    exact absurd ((updateScript_effect hw hc).2 j x y hx hy) hne
  | deleteScript sender id =>
    obtain ⟨db₁, hc, h⟩ := bind_eq_ok.mp h
    cases h
    exact False.elim hj

theorem disarming_of_update {p : Panel A} {db' : Database} {sender : Sender} {id : ℕ}
    {body : CronJobUpdate} (hc : Api.CronJobs.updateCronJob sender id body p.db = .ok db')
    (harmed : (p.scheduler.agenda.get? id).isSome) {x y : Text} (hx : wanted p.db id = some x)
    (hy : wanted db' id = some y) (hne : x ≠ y) (hn : A.fromCrontab y = none) :
    Disarming p (.request (.updateCronJob sender id body)) := by
  obtain ⟨-, hscripts, job, stored, hlive, hset, -, -, hk, hexpr⟩ := updateCronJob_commit hc
  rw [(wanted_set hscripts hset).1] at hy
  split_ifs at hy with he
  obtain rfl := Option.some.inj hy
  rcases hexpr with ⟨-, hsame⟩ | ⟨t, s, hb, hp, hs⟩
  · obtain ⟨job', hjob', -, rfl⟩ := wanted_eq_some.mp hx
    rw [(liveJob_eq_some.mp hlive).1] at hjob'
    cases hjob'
    exact absurd hsame.symm hne
  · refine ⟨harmed, ⟨db', hc⟩, ⟨t, s.text, hb, normalize_ok hp, hs ▸ hn⟩,
      fun k script hbody hget ↦ ?_⟩
    obtain ⟨-, -, k', script', hk', hget', -, henabled⟩ := eligible_iff.mp he
    rw [hk, hbody] at hk'
    cases hk'
    rw [hget] at hget'
    cases hget'
    exact henabled

theorem wanted_of_disarming {p : Panel A} {db' : Database} {sender : Sender} {id : ℕ}
    {body : CronJobUpdate} (hd : Disarming p (.request (.updateCronJob sender id body))) {x : Text}
    (hx : wanted p.db id = some x) (hc : Api.CronJobs.updateCronJob sender id body p.db = .ok db') :
    ∃ y, wanted db' id = some y ∧ A.fromCrontab y = none := by
  obtain ⟨-, -, ⟨t, n, hb, hn, hnone⟩, henabled⟩ := hd
  obtain ⟨href, hscripts, job, stored, hlive, hset, ha, hdel, hk, hexpr⟩ := updateCronJob_commit hc
  obtain ⟨job', hjob', he, -⟩ := wanted_eq_some.mp hx
  rw [(liveJob_eq_some.mp hlive).1] at hjob'
  cases hjob'
  obtain ⟨hlive', hactive, k, script, hk', hget, hkeep, hrun⟩ := eligible_iff.mp he
  have hstored : p.db.eligible stored := by
    rw [eligible_iff, ha, hdel, hk]
    refine ⟨hlive', hactive, ?_⟩
    cases hbody : body.scriptId with
    | none => exact ⟨k, script, hk', hget, hkeep, hrun⟩
    | some k₁ =>
      rw [hbody] at href
      obtain ⟨script₁, hs₁⟩ := validateScriptReference_ok href
      obtain ⟨hget₁, hlive₁⟩ := liveScript_eq_some.mp hs₁
      exact ⟨k₁, script₁, rfl, hget₁, hlive₁, henabled k₁ script₁ hbody hget₁⟩
  refine ⟨n, ?_, hnone⟩
  rw [(wanted_set hscripts hset).1, if_pos hstored]
  rcases hexpr with ⟨hb', -⟩ | ⟨t', s, hb', hp, hs⟩
  · rw [hb] at hb'
    cases hb'
  · rw [hb] at hb'
    cases hb'
    rw [normalize_ok hp] at hn
    rw [hs, Except.ok.inj hn]

theorem InSync.step {p p' : Panel A} {a : Action} (h : InSync p) (hd : ¬Disarming p a)
    (hstep : step p a = some p') : InSync p' := by
  cases a with
  | sync =>
    obtain ⟨agenda', hsync, hget⟩ := syncFromDb_spec h.wellFormed h.running
    simp only [Agenda.step, hsync, Option.some.injEq] at hstep
    subst hstep
    refine ⟨h.wellFormed, rfl, fun j ↦ (hget j).trans (refreshed_eq fun x hx hn ↦ ?_)⟩
    rw [h.entry, hx]
    exact hn
  | request op =>
    obtain rfl := Option.some.inj hstep
    rcases serve_spec h op with ⟨e, -, hs⟩ | ⟨db', n, agenda', hc, hs, hw, he, hget⟩
    · rw [hs]
      exact h
    · rw [hs]
      refine ⟨hw, rfl, fun j ↦ (hget j).trans ?_⟩
      split_ifs with hj
      · refine refreshed_eq fun y hy hn ↦ ?_
        by_contra hold
        have harmed := Option.isSome_iff_ne_none.mpr hold
        rw [h.entry] at hold
        obtain ⟨x, hx, hxn⟩ : ∃ x, wanted p.db j = some x ∧ armed? A x ≠ none := by
          cases hx : wanted p.db j with
          | none => exact absurd (by rw [hx]; rfl) hold
          | some x => exact ⟨x, rfl, by rwa [hx] at hold⟩
        have hne : x ≠ y := fun hxy ↦ hxn (hxy ▸ hn)
        obtain ⟨sender, body, rfl, hu⟩ := expression_changed h.wellFormed hc hj hx hy hne
        exact hd (disarming_of_update hu harmed hx hy hne (armed?_eq_none.mp hn))
      · rw [h.entry, wanted_of_not_covers he hj]

theorem InSync.disarms {p : Panel A} {a : Action} (h : InSync p) (hd : Disarming p a) :
    ∃ p', Agenda.step p a = some p' ∧ ¬Agrees p' := by
  match a, hd with
  | .request (.updateCronJob sender id body), hd =>
    refine ⟨_, rfl, ?_⟩
    have hgranted := hd
    obtain ⟨harmed, ⟨db', hu⟩, -⟩ := hgranted
    have hc : (Operation.updateCronJob sender id body).commit p.db = .ok (db', .jobChanged id) := by
      simp only [Operation.commit, hu, ok_bind]
    rcases serve_spec h (.updateCronJob sender id body) with ⟨e, he, -⟩ |
        ⟨db₁, n, agenda', hc', hs, hw, he, hget⟩
    · rw [hc] at he
      cases he
    · rw [hc] at hc'
      cases hc'
      obtain ⟨entry, hentry⟩ := Option.isSome_iff_exists.mp harmed
      obtain ⟨x, hx⟩ : ∃ x, wanted p.db id = some x := by
        cases hx : wanted p.db id with
        | none =>
          rw [h.entry, hx] at hentry
          cases hentry
        | some x => exact ⟨x, rfl⟩
      obtain ⟨y, hy, hn⟩ := wanted_of_disarming hd hx hu
      rw [hs, InSync.agrees_iff hw]
      intro hall
      have hid := hall id
      rw [expressions, hget, if_pos (show Covers (.jobChanged id) id from rfl), hy, hentry] at hid
      rw [refreshed, Option.bind_some, Option.bind_some, armed?_eq_none.mpr hn] at hid
      cases hid

/-- After a start on a database, the live agenda is at every moment the one a restart would
arm, exactly when no update disarms a job. -/
theorem live_agenda_agrees_iff {db : Database} (hw : WellFormed db) (as : List Action) :
    Always Agenda.step Agrees (boot A db) as ↔
      Guarded Agenda.step (fun p a ↦ ¬Disarming p a) (boot A db) as := by
  refine always_iff_guarded (I := InSync) (fun p h ↦ h.agrees) ?_ ?_ as (inSync_boot hw)
  · exact fun p a q h hd hstep ↦ h.step hd hstep
  · exact fun p a h hd ↦ h.disarms (not_not.mp hd)

def sixtyMinutes : Operation :=
  .updateCronJob ⟨1, 1, none⟩ 1 { scheduleExpression := some "*/60 * * * *".toList }

theorem failed_update_leaves_old_trigger :
    expressions (serve sixtyMinutes (boot apscheduler sample)).scheduler.agenda 1 =
        some "0 9 * * *".toList ∧
      expressions (boot apscheduler (serve sixtyMinutes (boot apscheduler sample)).db).scheduler.agenda 1 =
        none ∧
      ¬Always Agenda.step Agrees (boot apscheduler sample) [.request sixtyMinutes] := by
  have hlive : expressions (serve sixtyMinutes (boot apscheduler sample)).scheduler.agenda 1 =
      some "0 9 * * *".toList := by decide
  have hfresh : expressions (boot apscheduler
      (serve sixtyMinutes (boot apscheduler sample)).db).scheduler.agenda 1 = none := by decide
  refine ⟨hlive, hfresh, fun h ↦ ?_⟩
  have hagrees := h.2 (serve sixtyMinutes (boot apscheduler sample)) rfl 1
  rw [hlive, hfresh] at hagrees
  cases hagrees

theorem live_agenda_agrees_sample :
    Always Agenda.step Agrees (boot apscheduler sample) [.request sixtyMinutes] ↔
      Guarded Agenda.step (fun p a ↦ ¬Disarming p a) (boot apscheduler sample)
        [.request sixtyMinutes] :=
  live_agenda_agrees_iff sample_wellFormed [.request sixtyMinutes]

end CronPanel.Scheduler.Agenda
