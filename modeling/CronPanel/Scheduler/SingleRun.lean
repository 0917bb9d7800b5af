import CronPanel.Scheduler.Pipeline

namespace CronPanel.Scheduler.SingleRun

open Library.Strings Library.Tables Library.Fallible Library.Run Data.Records Data.Repositories
open Execution.Policy Execution.Executor Services.Executions Api.Errors Api.Operations Api.Executions Api.Frames
open Jobs Pipeline Eligibility

def RunningFor (jobId : ℕ) (e : Execution) : Prop := e.cronJobId = some jobId ∧ e.status = .running

/-- At most one execution of each job is running. -/
def AtMostOneRunning (db : Database) : Prop :=
  ∀ jobId k k' e e', db.executions.get? k = some e → db.executions.get? k' = some e' →
    RunningFor jobId e → RunningFor jobId e' → k = k'

def NoneScheduled (db : Database) (jobId : ℕ) : Prop :=
  ∀ k e, db.executions.get? k = some e → RunningFor jobId e → e.trigger = .manual

/-- A manual run that starts while the job has a running execution, or a scheduled run that
starts, after its check, while the job has a running execution of a manual run. -/
def Overlapping (w : World) : Action → Prop
  | .advanceRequest env k =>
    ∃ call, w.requests.get? k = some (.starting call) ∧ Starts env call w.db ∧
      w.db.hasRunningExecution call.jobId
  | .advanceFire env jobId => ∃ call, w.fires.get? jobId = some (.inRun (.starting call)) ∧
      Starts env call w.db ∧ ∃ k e, w.db.executions.get? k = some e ∧ RunningFor jobId e ∧
        e.trigger = .manual
  | _ => False

def Checked (db : Database) (jobId : ℕ) : Fire → Prop
  | .checking _ => True
  | .calling _ => NoneScheduled db jobId
  | .inRun (.starting call) =>
    call.jobId = jobId ∧ call.trigger = .scheduled ∧ NoneScheduled db jobId
  | .inRun (.running _) => True

def ByHand : Stage → Prop
  | .starting call => call.trigger = .manual
  | .running _ => True

/-- The invariant of the runs in which no two executions overlap. -/
structure Sequential (w : World) : Prop where
  once : AtMostOneRunning w.db
  fires : ∀ jobId fire, w.fires.get? jobId = some fire → Checked w.db jobId fire
  requests : ∀ k stage, w.requests.get? k = some stage → ByHand stage

def NoneStarted (db db' : Database) : Prop :=
  ∀ k e, db'.executions.get? k = some e → e.status = .running → db.executions.get? k = some e

def Started (now : Instant) (call : RunCall) (db db' : Database) : Prop :=
  ∃ scriptId, db'.executions = db.executions.set db.executions.nextId
    (startedExecution now call scriptId)

section

variable {db db' : Database} {env : Environment} {jobId : ℕ} {call : RunCall} {now : Instant}

theorem noneStarted_of_executions (h : db'.executions = db.executions) : NoneStarted db db' :=
  fun _ _ hk _ ↦ h ▸ hk

theorem AtMostOneRunning.of_noneStarted (h : AtMostOneRunning db) (hn : NoneStarted db db') :
    AtMostOneRunning db' :=
  fun jobId k k' e e' hk hk' he he' ↦ h jobId k k' e e' (hn k e hk he.2) (hn k' e' hk' he'.2) he he'

theorem NoneScheduled.of_noneStarted (h : NoneScheduled db jobId) (hn : NoneStarted db db') :
    NoneScheduled db' jobId :=
  fun k e hk he ↦ h k e (hn k e hk he.2) he

theorem Checked.mono (h : NoneScheduled db jobId → NoneScheduled db' jobId) {fire : Fire}
    (hf : Checked db jobId fire) : Checked db' jobId fire := by
  match fire, hf with
  | .checking _, _ => trivial
  | .calling _, hf => exact h hf
  | .inRun (.starting _), hf => exact ⟨hf.1, hf.2.1, h hf.2.2⟩
  | .inRun (.running _), _ => trivial

theorem Started.get? (h : Started now call db db') {k : ℕ} {e : Execution}
    (hk : db'.executions.get? k = some e) :
    (k = db.executions.nextId ∧ ∃ scriptId, e = startedExecution now call scriptId) ∨
      db.executions.get? k = some e := by
  obtain ⟨scriptId, hset⟩ := h
  rw [hset, Table.get?_set] at hk
  split_ifs at hk with he
  · exact .inl ⟨he, scriptId, (Option.some.inj hk).symm⟩
  · exact .inr hk

theorem AtMostOneRunning.start (h : AtMostOneRunning db) (hs : Started now call db db')
    (hnone : ∀ k e, db.executions.get? k = some e → ¬RunningFor call.jobId e) :
    AtMostOneRunning db' := by
  intro j k k' e e' hk hk' he he'
  rcases hs.get? hk with ⟨hnew, scriptId, rfl⟩ | hold
  · obtain rfl : call.jobId = j := Option.some.inj he.1
    rcases hs.get? hk' with ⟨hnew', -⟩ | hold'
    · rw [hnew, hnew']
    · exact absurd he' (hnone k' e' hold')
  · rcases hs.get? hk' with ⟨hnew', scriptId, rfl⟩ | hold'
    · obtain rfl : call.jobId = j := Option.some.inj he'.1
      exact absurd he (hnone k e hold)
    · exact h j k k' e e' hold hold' he he'

theorem Started.not_atMostOne (hs : Started now call db db') {k : ℕ} {e : Execution}
    (hk : db.executions.get? k = some e) (he : RunningFor call.jobId e) :
    ¬AtMostOneRunning db' := by
  intro h
  obtain ⟨scriptId, hset⟩ := hs
  have hne : k ≠ db.executions.nextId := (Table.lt_nextId hk).ne
  refine hne (h call.jobId k db.executions.nextId e (startedExecution now call scriptId) ?_ ?_ he ⟨rfl, rfl⟩)
  · rw [hset, Table.get?_set_ne _ _ hne, hk]
  · rw [hset, Table.get?_set_self]

theorem NoneScheduled.start (h : NoneScheduled db jobId) (hs : Started now call db db')
    (hc : call.trigger = .manual ∨ call.jobId ≠ jobId) : NoneScheduled db' jobId := by
  intro k e hk he
  rcases hs.get? hk with ⟨-, scriptId, rfl⟩ | hold
  · exact hc.resolve_right fun hne ↦ hne (Option.some.inj he.1)
  · exact h k e hold he

theorem advance_effect {stage : Stage} {rest : Option Stage}
    (h : stage.advance env db = .ok (db', rest)) :
    (∃ call running, stage = .starting call ∧ rest = some (.running running) ∧ Starts env call db ∧
      Started env.now call db db') ∨ (rest = none ∧ NoneStarted db db') := by
  cases stage with
  | starting call =>
    obtain ⟨⟨running, db₁⟩, hs, h⟩ := bind_eq_ok.mp h
    cases h
    obtain ⟨hstarts, -, hid, -, hset, -⟩ := startRun_ok hs
    exact .inl ⟨call, running, rfl, rfl, hstarts, running.scriptId, hid ▸ hset⟩
  | running run =>
    obtain ⟨db₁, hf, h⟩ := bind_eq_ok.mp h
    cases h
    obtain ⟨row, new, -, hset, hstatus, -⟩ := finishRun_ok hf
    refine .inr ⟨rfl, fun k e hk he ↦ ?_⟩
    rw [hset, Table.get?_set] at hk
    split_ifs at hk
    · exact absurd (Option.some.inj hk ▸ he) hstatus
    · exact hk

theorem fire_effect {fire : Fire} {rest : Option Fire}
    (h : fire.advance env jobId db = (db', rest)) :
    (rest = none ∧ NoneStarted db db') ∨
    (∃ job, rest = some (.calling job) ∧ db' = db ∧ ¬db.hasRunningExecution jobId) ∨
    (∃ job, fire = .calling job ∧ rest = some (.inRun (.starting (scheduledCall jobId job))) ∧ db' = db) ∨
    ∃ call running, fire = .inRun (.starting call) ∧ rest = some (.inRun (.running running)) ∧
      Starts env call db ∧ Started env.now call db db' := by
  cases fire with
  | checking job =>
    simp only [Fire.advance] at h
    split_ifs at h with hrunning
    · cases h
      exact .inl ⟨rfl, noneStarted_of_executions rfl⟩
    · cases h
      exact .inr (.inl ⟨job, rfl, rfl, hrunning⟩)
  | calling job =>
    simp only [Fire.advance] at h
    split at h
    · cases h
      exact .inl ⟨rfl, noneStarted_of_executions (recordFailure_fields _ _ _ _ _).1⟩
    · cases h
      exact .inr (.inr (.inl ⟨job, rfl, rfl, rfl⟩))
  | inRun stage =>
    simp only [Fire.advance] at h
    cases hadv : stage.advance env db with
    | error e =>
      rw [hadv] at h
      cases h
      exact .inl ⟨rfl, noneStarted_of_executions (recordFailure_fields _ _ _ _ _).1⟩
    | ok r =>
      rw [hadv] at h
      cases h
      obtain ⟨call, running, rfl, hrest, hstarts, hnew⟩ | ⟨hrest, hn⟩ := advance_effect hadv
      · exact .inr (.inr (.inr ⟨call, running, rfl, by rw [hrest, Option.map_some], hstarts, hnew⟩))
      · exact .inl ⟨by rw [hrest, Option.map_none], hn⟩

theorem advance_of_starts (h : Starts env call db) :
    ∃ db' running, (Stage.starting call).advance env db = .ok (db', some (.running running)) ∧
      Started env.now call db db' := by
  obtain ⟨⟨running, db'⟩, hs⟩ := startRun_of_starts h
  obtain ⟨-, -, hid, -, hset, -⟩ := startRun_ok hs
  exact ⟨db', running, advance_starting hs, running.scriptId, hid ▸ hset⟩

end

section Step

variable {w w' : World}

theorem Sequential.of_noneStarted (h : Sequential w) {db : Database} {fires : Table ℕ Fire}
    {requests : Table ℕ Stage} (hn : NoneStarted w.db db)
    (hfires : ∀ jobId fire, fires.get? jobId = some fire →
      w.fires.get? jobId = some fire ∨ Checked db jobId fire)
    (hrequests : ∀ k stage, requests.get? k = some stage → w.requests.get? k = some stage ∨
      ByHand stage) :
    Sequential ⟨db, fires, requests⟩ := by
  refine ⟨h.once.of_noneStarted hn, fun j f hf ↦ ?_, fun k s hs ↦ ?_⟩
  · exact (hfires j f hf).elim (fun hf ↦ (h.fires j f hf).mono (·.of_noneStarted hn)) id
  · exact (hrequests k s hs).elim (h.requests k s) id

theorem Sequential.advanceRequest (h : Sequential w) {env : Environment} {k : ℕ}
    (hno : ¬Overlapping w (.advanceRequest env k))
    (hstep : step w (.advanceRequest env k) = some w') :
    Sequential w' := by
  obtain ⟨stage, hk, rfl⟩ := Option.map_eq_some_iff.mp hstep
  cases hadv : stage.advance env w.db with
  | error e =>
    exact h.of_noneStarted (noneStarted_of_executions rfl) (fun _ _ ↦ .inl)
      (Table.forall_erase fun _ _ _ ↦ .inl)
  | ok r =>
    obtain ⟨db', rest⟩ := r
    obtain ⟨call, running, rfl, rfl, hstarts, hnew⟩ | ⟨rfl, hn⟩ := advance_effect hadv
    · have hnone : ∀ i e, w.db.executions.get? i = some e →
        ¬RunningFor call.jobId e := fun i e hi he ↦
        hno ⟨call, hk, hstarts, Database.hasRunningExecution_iff.mpr ⟨i, e, hi, he⟩⟩
      have hmanual : call.trigger = .manual := h.requests k _ hk
      refine ⟨h.once.start hnew hnone, fun j f hf ↦ ?_,
        Table.forall_set trivial fun i s _ ↦ h.requests i s⟩
      exact (h.fires j f hf).mono (·.start hnew (.inl hmanual))
    · exact h.of_noneStarted hn (fun _ _ ↦ .inl) (Table.forall_erase fun _ _ _ ↦ .inl)

theorem Sequential.advanceFire (h : Sequential w) {env : Environment} {jobId : ℕ}
    (hno : ¬Overlapping w (.advanceFire env jobId))
    (hstep : step w (.advanceFire env jobId) = some w') :
    Sequential w' := by
  obtain ⟨fire, hj, rfl⟩ := step_advanceFire hstep
  cases hadv : fire.advance env jobId w.db with | mk db' rest =>
  obtain ⟨rfl, hn⟩ | ⟨job, rfl, rfl, hrunning⟩ | ⟨job, rfl, rfl, rfl⟩ |
      ⟨call, running, rfl, rfl, hstarts, hnew⟩ :=
    fire_effect hadv
  · exact h.of_noneStarted hn (Table.forall_erase fun _ _ _ ↦ .inl) (fun _ _ ↦ .inl)
  · refine h.of_noneStarted (noneStarted_of_executions rfl)
      (Table.forall_set (.inr fun k e hk he ↦ ?_) fun _ _ _ ↦ .inl) (fun _ _ ↦ .inl)
    exact absurd (Database.hasRunningExecution_iff.mpr ⟨k, e, hk, he⟩) hrunning
  · exact h.of_noneStarted (noneStarted_of_executions rfl)
      (Table.forall_set (.inr ⟨rfl, rfl, h.fires jobId _ hj⟩) fun _ _ _ ↦ .inl) (fun _ _ ↦ .inl)
  · obtain ⟨rfl, hscheduled, hmanual⟩ := h.fires jobId _ hj
    have hnone :
        ∀ i e, w.db.executions.get? i = some e → ¬RunningFor call.jobId e := fun i e hi he ↦
      hno ⟨call, hj, hstarts, i, e, hi, he, hmanual i e hi he⟩
    refine ⟨h.once.start hnew hnone, Table.forall_set trivial fun j f hne hf ↦ ?_, h.requests⟩
    exact (h.fires j f hf).mono (·.start hnew (.inr hne.symm))

theorem Sequential.step {a : Action} (h : Sequential w) (hno : ¬Overlapping w a)
    (hstep : Pipeline.step w a = some w') : Sequential w' := by
  cases a with
  | edit op =>
    cases hc : op.commit w.db with
    | error e =>
      simp only [Pipeline.step, hc, Option.some.injEq] at hstep
      exact hstep ▸ h
    | ok r =>
      simp only [Pipeline.step, hc, Option.some.injEq] at hstep
      subst hstep
      exact h.of_noneStarted (noneStarted_of_executions (commit_framed hc).executions)
        (fun _ _ ↦ .inl)
        (fun _ _ ↦ .inl)
  | fire jobId =>
    dsimp only [Pipeline.step] at hstep
    split at hstep
    · cases hstep
    · split at hstep <;> cases hstep
      · exact h
      · split_ifs
        · exact h.of_noneStarted (noneStarted_of_executions rfl)
            (Table.forall_set (.inr trivial) fun _ _ _ ↦ .inl) (fun _ _ ↦ .inl)
        · exact h
  | execute sender jobId =>
    dsimp only [Pipeline.step] at hstep
    split at hstep <;> cases hstep
    · rename_i call hcall
      exact h.of_noneStarted (noneStarted_of_executions rfl) (fun _ _ ↦ .inl)
        (Table.forall_set (.inr (executeCall_ok hcall).1) fun _ _ _ ↦ .inl)
    · exact h
  | advanceFire env jobId => exact h.advanceFire hno hstep
  | advanceRequest env k => exact h.advanceRequest hno hstep
  | failFire jobId =>
    obtain ⟨fire, -, rfl⟩ := Option.map_eq_some_iff.mp hstep
    exact h.of_noneStarted (noneStarted_of_executions rfl) (Table.forall_erase fun _ _ _ ↦ .inl)
      (fun _ _ ↦ .inl)
  | failRequest k =>
    obtain ⟨stage, -, rfl⟩ := Option.map_eq_some_iff.mp hstep
    exact h.of_noneStarted (noneStarted_of_executions rfl) (fun _ _ ↦ .inl)
      (Table.forall_erase fun _ _ _ ↦ .inl)
  | restart now =>
    cases hstep
    exact h.of_noneStarted (noneStarted_of_executions rfl) Table.forall_empty Table.forall_empty

theorem Sequential.overlaps {a : Action} (h : Sequential w) (hover : Overlapping w a) :
    ∃ w', Pipeline.step w a = some w' ∧ ¬AtMostOneRunning w'.db := by
  match a, hover with
  | .advanceRequest env k, ⟨call, hk, hstarts, hrunning⟩ =>
    obtain ⟨i, e, hi, he⟩ := Database.hasRunningExecution_iff.mp hrunning
    obtain ⟨db', running, hadv, hnew⟩ := advance_of_starts hstarts
    refine ⟨_, Option.map_eq_some_iff.mpr ⟨_, hk, rfl⟩, ?_⟩
    rw [hadv]
    exact hnew.not_atMostOne hi he
  | .advanceFire env jobId, ⟨call, hj, hstarts, i, e, hi, he, _⟩ =>
    obtain ⟨rfl, -⟩ := h.fires jobId _ hj
    obtain ⟨db', running, hadv, hnew⟩ := advance_of_starts hstarts
    refine ⟨_, Option.map_eq_some_iff.mpr ⟨_, hj, rfl⟩, ?_⟩
    rw [Fire.advance, hadv]
    exact hnew.not_atMostOne hi he

end Step

theorem sequential_begin {db : Database} (h : AtMostOneRunning db) : Sequential (begin db) :=
  ⟨h, Table.forall_empty, Table.forall_empty⟩

/-- After a start, no job ever has two running executions, exactly in the runs in which no
manual run starts over another execution and no scheduled run over a manual one. -/
theorem at_most_one_running_iff {db : Database} (h : AtMostOneRunning db) (as : List Action) :
    Always Pipeline.step (fun w ↦ AtMostOneRunning w.db) (begin db) as ↔
      Guarded Pipeline.step (fun w a ↦ ¬Overlapping w a) (begin db) as :=
  always_iff_guarded (I := Sequential) (fun _ h ↦ h.once) (fun _ _ _ h hno hstep ↦ h.step hno hstep)
    (fun _ _ h hover ↦ h.overlaps (not_not.mp hover)) as (sequential_begin h)

def twoRequests : List Action :=
  [.execute ⟨1, 1, none⟩ 1, .execute ⟨1, 1, none⟩ 1, .advanceRequest sampleEnvironment 1,
    .advanceRequest sampleEnvironment 2]

theorem two_requests_run_at_once :
    (∃ w, exec Pipeline.step (begin sample) twoRequests = some w ∧
      ((w.db.executions.rows.map fun r ↦ (r.1, r.2.cronJobId, r.2.status)) =
        [(1, some 1, .running), (2, some 1, .running)])) ∧
      ¬Always Pipeline.step (fun w ↦ AtMostOneRunning w.db) (begin sample) twoRequests := by
  have hlast : ((exec Pipeline.step (begin sample) twoRequests).map fun w ↦
      w.db.executions.rows.map fun r ↦ (r.1, r.2.cronJobId, r.2.status)) =
        some [(1, some 1, .running), (2, some 1, .running)] := by decide
  obtain ⟨w, hw, hrows⟩ := Option.map_eq_some_iff.mp hlast
  refine ⟨⟨w, hw, hrows⟩, fun h ↦ ?_⟩
  have honce := h.last hw
  have hget {k : ℕ} (hk : k ∈ [1, 2]) : ∃ e, w.db.executions.get? k = some e ∧ RunningFor 1 e := by
    have hmem :
        (k, some 1, Status.running) ∈ w.db.executions.rows.map fun r ↦
        (r.1, r.2.cronJobId, r.2.status) := by
      rw [hrows]
      simpa using hk
    obtain ⟨⟨k', e⟩, hr, he⟩ := List.mem_map.mp hmem
    obtain ⟨rfl, hjob, hstatus⟩ := by simpa using he
    exact ⟨e, Table.mem_rows.mp hr, hjob, hstatus⟩
  obtain ⟨e, he, hrun⟩ := hget (k := 1) (by decide)
  obtain ⟨e', he', hrun'⟩ := hget (k := 2) (by decide)
  exact absurd (honce 1 1 2 e e' he he' hrun hrun') (by decide)

theorem sample_at_most_one_running :
    Always Pipeline.step (fun w ↦ AtMostOneRunning w.db) (begin sample) twoRequests ↔
      Guarded Pipeline.step (fun w a ↦ ¬Overlapping w a) (begin sample) twoRequests :=
  at_most_one_running_iff (fun _ _ _ _ _ hk ↦ (Option.some_ne_none _ hk.symm).elim) twoRequests

end CronPanel.Scheduler.SingleRun
