import CronPanel.Scheduler.Pipeline

namespace CronPanel.Scheduler.Abandoned

open Library.Strings Library.Tables Library.Fallible Library.Run Data.Records Data.Repositories
open Execution.Policy Execution.Executor Services.Executions Api.Errors Api.Operations Api.Executions Api.Frames
open Jobs Pipeline Eligibility

inductive Party
  | fire (jobId : ℕ)
  | request (k : ℕ)
  deriving DecidableEq

def stageOf : Fire → Option Stage
  | .inRun stage => some stage
  | _ => none

/-- Where the call of `_run` of a party stands, while it has neither returned nor raised. -/
def stage? (w : World) : Party → Option Stage
  | .fire jobId => (w.fires.get? jobId).bind stageOf
  | .request k => w.requests.get? k

def InProgress (w : World) (jobId : ℕ) : Prop :=
  ∃ p stage, stage? w p = some stage ∧ stage.call.jobId = jobId

/-- A scheduled run that is to be skipped as already running has a run under way. -/
def SkipsInProgress (w : World) : Prop :=
  ∀ jobId job, w.fires.get? jobId = some (.checking job) → w.db.hasRunningExecution jobId →
    InProgress w jobId

/-- Every running execution is that of a run under way. -/
def NoneAbandoned (w : World) : Prop :=
  ∀ k e, w.db.executions.get? k = some e → e.status = .running →
    ∃ p run, stage? w p = some (.running run) ∧ run.executionId = k

/-- A call of `_run` ends between its two commits: its script cannot be launched, the
database fails, or the process crashes. -/
def Abandoning (w : World) : Action → Prop
  | .advanceFire env jobId =>
    ∃ run, stage? w (.fire jobId) = some (.running run) ∧ Raises env run.path
  | .advanceRequest env k =>
    ∃ run, stage? w (.request k) = some (.running run) ∧ Raises env run.path
  | .failFire jobId => ∃ run, stage? w (.fire jobId) = some (.running run)
  | .failRequest k => ∃ run, stage? w (.request k) = some (.running run)
  | .restart _ => ∃ p run, stage? w p = some (.running run)
  | _ => False

def Placed (db : Database) : Stage → Prop
  | .starting call => (db.cronJobs.get? call.jobId).isSome
  | .running run =>
    (db.cronJobs.get? run.call.jobId).isSome ∧ (db.scripts.get? run.scriptId).isSome ∧
      ∃ e, db.executions.get? run.executionId = some e ∧ e.status = .running ∧
        e.cronJobId = some run.call.jobId

/-- The invariant of the runs in which no execution is abandoned. -/
structure Tracked (w : World) : Prop where
  rows : NoneAbandoned w
  placed : ∀ p stage, stage? w p = some stage → Placed w.db stage
  distinct : ∀ p q r r', stage? w p = some (.running r) → stage? w q = some (.running r') →
    r.executionId = r'.executionId → p = q

section Stages

variable (db db' : Database) (fires : Table ℕ Fire) (requests : Table ℕ Stage) (q : Party)

theorem stage?_moveFire (jobId : ℕ) (rest : Option Fire) :
    stage? ⟨db', rest.elim (fires.erase jobId) (fires.set jobId), requests⟩ q =
      if q = .fire jobId then rest.bind stageOf else stage? ⟨db, fires, requests⟩ q := by
  cases q with
  | request k => rfl
  | fire j =>
    cases rest with
    | none =>
      simp only [stage?, Option.elim_none, Table.get?_erase, Party.fire.injEq]
      split_ifs <;> rfl
    | some fire =>
      simp only [stage?, Option.elim_some, Table.get?_set, Party.fire.injEq]
      split_ifs <;> rfl

theorem stage?_moveRequest (k : ℕ) (rest : Option Stage) :
    stage? ⟨db', fires, rest.elim (requests.erase k) (requests.set k)⟩ q =
      if q = .request k then rest else stage? ⟨db, fires, requests⟩ q := by
  cases q with
  | fire j => rfl
  | request i =>
    cases rest with
    | none => simp only [stage?, Option.elim_none, Table.get?_erase, Party.request.injEq]
    | some stage => simp only [stage?, Option.elim_some, Table.get?_set, Party.request.injEq]

end Stages

section

variable {w w' : World} {p : Party} {env : Environment}

theorem Placed.extends {db db' : Database} (hx : Extends db db') {stage : Stage}
    (h : Placed db stage) :
    Placed db' stage := by
  cases stage with
  | starting call => exact hx.jobs _ h
  | running run =>
    obtain ⟨hjob, hscript, hrow⟩ := h
    exact ⟨hx.jobs _ hjob, hx.scripts _ hscript, hx.executions ▸ hrow⟩

theorem Tracked.quiet (h : Tracked w) (hx : Extends w.db w'.db)
    (hnew : ∀ q stage, stage? w' q = some stage →
      stage? w q = some stage ∨ ∃ call, stage = .starting call ∧ Placed w'.db stage)
    (hold : ∀ q run, stage? w q = some (.running run) → stage? w' q = some (.running run)) :
    Tracked w' := by
  have hback : ∀ q run, stage? w' q = some (.running run) → stage? w q = some (.running run) := by
    intro q run hq
    rcases hnew q _ hq with hq | ⟨call, hcall, -⟩
    · exact hq
    · cases hcall
  refine ⟨fun k e hk he ↦ ?_, fun q stage hq ↦ ?_, fun q q' r r' hr hr' ↦ ?_⟩
  · rw [hx.executions] at hk
    obtain ⟨q, run, hq, hid⟩ := h.rows k e hk he
    exact ⟨q, run, hold q run hq, hid⟩
  · rcases hnew q stage hq with hq | ⟨call, -, hplaced⟩
    · exact (h.placed q stage hq).extends hx
    · exact hplaced
  · exact h.distinct q q' r r' (hback q r hr) (hback q' r' hr')

theorem Tracked.start (h : Tracked w) {call : RunCall} {run : Running}
    (hp : stage? w p = some (.starting call))
    (hs : startRun env call w.db = .ok (run, w'.db))
    (hstage : ∀ q, stage? w' q = if q = p then some (.running run) else stage? w q) :
    Tracked w' := by
  obtain ⟨-, rfl, hid, ⟨script, hscript⟩, hset, hjobs, hscripts⟩ := startRun_ok hs
  have hlt : ∀ q r, stage? w q = some (.running r) → r.executionId < w.db.executions.nextId := by
    intro q r hq
    obtain ⟨-, -, e, he, -⟩ := h.placed q _ hq
    exact Table.lt_nextId he
  have hcases :
      ∀ q r, stage? w' q = some (.running r) → (q = p ∧ r = run) ∨
      stage? w q = some (.running r) := by
    intro q r hq
    rw [hstage] at hq
    split_ifs at hq with he
    · cases hq
      exact .inl ⟨he, rfl⟩
    · exact .inr hq
  refine ⟨fun k e hk he ↦ ?_, fun q stage hq ↦ ?_, fun q q' r r' hr hr' hsame ↦ ?_⟩
  · rw [hset, Table.get?_set] at hk
    split_ifs at hk with hnew
    · exact ⟨p, run, by rw [hstage, if_pos rfl], hnew.symm⟩
    · obtain ⟨q, r, hq, hr⟩ := h.rows k e hk he
      have hne : q ≠ p := by
        intro heq
        obtain rfl := heq
        rw [hp] at hq
        cases hq
      exact ⟨q, r, by rw [hstage, if_neg hne, hq], hr⟩
  · rw [hstage] at hq
    split_ifs at hq with he
    · cases hq
      refine ⟨?_, ?_, startedExecution env.now run.call run.scriptId, ?_, rfl, rfl⟩
      · rw [hjobs]
        exact h.placed p _ hp
      · rw [hscripts, hscript]
        rfl
      · rw [hset, Table.get?_set_self]
    · have hplaced := h.placed q stage hq
      cases stage with
      | starting call =>
        unfold Placed
        rw [hjobs]
        exact hplaced
      | running r =>
        obtain ⟨hjob, hscript, e, hrow, hrest⟩ := hplaced
        refine ⟨hjobs ▸ hjob, hscripts ▸ hscript, e, ?_, hrest⟩
        rw [hset, Table.get?_set_ne _ _ (hid ▸ (hlt q r hq).ne), hrow]
  · rcases hcases q r hr with ⟨rfl, rfl⟩ | hr
    · rcases hcases q' r' hr' with ⟨rfl, -⟩ | hr'
      · rfl
      · exact absurd (hsame.symm.trans hid) (hlt q' r' hr').ne
    · rcases hcases q' r' hr' with ⟨rfl, rfl⟩ | hr'
      · exact absurd (hsame.trans hid) (hlt q r hr).ne
      · exact h.distinct q q' r r' hr hr' hsame

theorem Tracked.finish (h : Tracked w) {run : Running} (hp : stage? w p = some (.running run))
    (hf : finishRun env run w.db = .ok w'.db)
    (hstage : ∀ q, stage? w' q = if q = p then none else stage? w q) : Tracked w' := by
  obtain ⟨row, new, hrow, hset, hstatus, hjobs, hscripts⟩ := finishRun_ok hf
  have hcases : ∀ q stage, stage? w' q = some stage → q ≠ p ∧ stage? w q = some stage := by
    intro q stage hq
    rw [hstage] at hq
    split_ifs at hq with he
    exact ⟨he, hq⟩
  refine ⟨fun k e hk he ↦ ?_, fun q stage hq ↦ ?_, fun q q' r r' hr hr' hsame ↦ ?_⟩
  · rw [hset, Table.get?_set] at hk
    split_ifs at hk with hsame
    · exact absurd (Option.some.inj hk ▸ he) hstatus
    · obtain ⟨q, r, hq, hr⟩ := h.rows k e hk he
      have hne : q ≠ p := by
        intro heq
        obtain rfl := heq
        rw [hp] at hq
        cases hq
        exact hsame hr.symm
      exact ⟨q, r, by rw [hstage, if_neg hne, hq], hr⟩
  · obtain ⟨hne, hq⟩ := hcases q stage hq
    have hplaced := h.placed q stage hq
    cases stage with
    | starting call =>
      unfold Placed
      rw [hjobs]
      exact hplaced
    | running r =>
      obtain ⟨hjob, hscript, e, hr, hrest⟩ := hplaced
      refine ⟨hjobs ▸ hjob, hscripts ▸ hscript, e, ?_, hrest⟩
      rw [hset, Table.get?_set_ne _ _ (fun hsame ↦ hne (h.distinct q p r run hq hp hsame)), hr]
  · exact h.distinct q q' r r' (hcases q _ hr).2 (hcases q' _ hr').2 hsame

theorem Tracked.error_iff (h : Tracked w) {run : Running} (hp : stage? w p = some (.running run)) :
    (∃ e, finishRun env run w.db = .error e) ↔ Raises env run.path := by
  obtain ⟨hjob, hscript, e, hrow, -⟩ := h.placed p _ hp
  obtain ⟨job, hjob⟩ := Option.isSome_iff_exists.mp hjob
  obtain ⟨script, hscript⟩ := Option.isSome_iff_exists.mp hscript
  exact finishRun_error_iff hrow hjob hscript

theorem Tracked.advance (h : Tracked w) {stage : Stage} {rest : Option Stage}
    (hp : stage? w p = some stage) (hadv : stage.advance env w.db = .ok (w'.db, rest))
    (hstage : ∀ q, stage? w' q = if q = p then rest else stage? w q) : Tracked w' := by
  cases stage with
  | starting call =>
    obtain ⟨⟨run, db⟩, hs, he⟩ := bind_eq_ok.mp hadv
    obtain ⟨rfl, rfl⟩ := Prod.mk.inj (Except.ok.inj he)
    exact h.start hp hs hstage
  | running run =>
    obtain ⟨db, hf, he⟩ := bind_eq_ok.mp hadv
    obtain ⟨rfl, rfl⟩ := Prod.mk.inj (Except.ok.inj he)
    exact h.finish hp hf hstage

theorem Tracked.drop (h : Tracked w) (hp : ∀ run, stage? w p ≠ some (.running run))
    (hx : Extends w.db w'.db)
    (hstage : ∀ q, stage? w' q = if q = p then none else stage? w q) : Tracked w' := by
  refine h.quiet hx (fun q stage hq ↦ .inl ?_) (fun q run hq ↦ ?_)
  · rw [hstage] at hq
    split_ifs at hq
    exact hq
  · rw [hstage, if_neg (fun he : q = p ↦ hp run (he ▸ hq)), hq]

theorem Tracked.not_running_of_error (h : Tracked w) {stage : Stage} {e : ExecutionError}
    (hp : stage? w p = some stage) (hadv : stage.advance env w.db = .error e)
    (hno : ¬∃ run, stage? w p = some (.running run) ∧ Raises env run.path) :
    ∀ run, stage? w p ≠ some (.running run) := by
  intro run hrun
  rw [hp] at hrun
  cases hrun
  refine hno ⟨run, hp, (h.error_iff hp).mp ?_⟩
  cases hf : finishRun env run w.db with
  | error e => exact ⟨e, rfl⟩
  | ok db =>
    rw [Stage.advance, hf] at hadv
    cases hadv

theorem Tracked.not_noneAbandoned (h : Tracked w) {run : Running}
    (hp : stage? w p = some (.running run))
    (he : w'.db.executions = w.db.executions)
    (hlost : ∀ q r, stage? w' q = some (.running r) → q ≠ p ∧ stage? w q = some (.running r)) :
    ¬NoneAbandoned w' := by
  intro hrows
  obtain ⟨-, -, e, hrow, hrunning, -⟩ := h.placed p _ hp
  obtain ⟨q, r, hq, hr⟩ := hrows run.executionId e (he ▸ hrow) hrunning
  obtain ⟨hne, hq⟩ := hlost q r hq
  exact hne (h.distinct q p r run hq hp hr)

theorem Tracked.lose (h : Tracked w) {run : Running} (hp : stage? w p = some (.running run))
    (he : w'.db.executions = w.db.executions)
    (hstage : ∀ q, stage? w' q = if q = p then none else stage? w q) : ¬NoneAbandoned w' := by
  refine h.not_noneAbandoned hp he fun q r hq ↦ ?_
  rw [hstage] at hq
  split_ifs at hq with hne
  exact ⟨hne, hq⟩

theorem extends_of_fields {db db' : Database}
    (h : db'.executions = db.executions ∧ db'.cronJobs = db.cronJobs ∧ db'.scripts = db.scripts) :
    Extends db db' := ⟨h.1, fun _ hj ↦ h.2.1 ▸ hj, fun _ hs ↦ h.2.2 ▸ hs⟩

end

section Step

variable {w w' : World}

theorem Tracked.advanceFire (h : Tracked w) {env : Environment} {jobId : ℕ}
    (hno : ¬Abandoning w (.advanceFire env jobId))
    (hstep : Pipeline.step w (.advanceFire env jobId) = some w') :
    Tracked w' := by
  obtain ⟨fire, hj, rfl⟩ := step_advanceFire hstep
  cases hadv : fire.advance env jobId w.db with | mk db' rest =>
  have hmove (q : Party) := stage?_moveFire w.db db' w.fires w.requests q jobId rest
  have hbefore : stage? w (.fire jobId) = stageOf fire := by
    rw [stage?, hj]
    rfl
  cases fire with
  | checking job =>
    have hnot : ∀ run, stage? w (.fire jobId) ≠ some (.running run) := by
      intro run hrun
      rw [hbefore] at hrun
      cases hrun
    simp only [Fire.advance] at hadv
    split_ifs at hadv
    · cases hadv
      exact h.drop hnot (extends_of_fields ⟨rfl, rfl, rfl⟩) hmove
    · cases hadv
      exact h.drop hnot (.refl _) hmove
  | calling job =>
    have hnot : ∀ run, stage? w (.fire jobId) ≠ some (.running run) := by
      intro run hrun
      rw [hbefore] at hrun
      cases hrun
    simp only [Fire.advance] at hadv
    split at hadv
    · cases hadv
      exact h.drop hnot (extends_of_fields (recordFailure_fields _ _ _ _ _)) hmove
    · rename_i live hlive
      cases hadv
      refine h.quiet (.refl _) (fun q stage hq ↦ ?_) (fun q run hq ↦ ?_)
      · rw [hmove] at hq
        split_ifs at hq
        · cases hq
          refine .inr ⟨_, rfl, Option.isSome_iff_exists.mpr ⟨live, ?_⟩⟩
          exact (Database.liveJob_eq_some.mp hlive).1
        · exact .inl hq
      · rw [hmove, if_neg (fun he : q = .fire jobId ↦ hnot run (he ▸ hq))]
        exact hq
  | inRun stage =>
    simp only [Fire.advance] at hadv
    cases hs : stage.advance env w.db with
    | error e =>
      rw [hs] at hadv
      cases hadv
      exact h.drop (h.not_running_of_error hbefore hs hno)
        (extends_of_fields (recordFailure_fields _ _ _ _ _)) hmove
    | ok r =>
      obtain ⟨db₁, rest₁⟩ := r
      rw [hs] at hadv
      cases hadv
      refine h.advance hbefore hs fun q ↦ ?_
      rw [hmove]
      cases rest₁ <;> rfl

theorem Tracked.advanceRequest (h : Tracked w) {env : Environment} {k : ℕ}
    (hno : ¬Abandoning w (.advanceRequest env k))
    (hstep : Pipeline.step w (.advanceRequest env k) = some w') : Tracked w' := by
  obtain ⟨stage, hk, rfl⟩ := Option.map_eq_some_iff.mp hstep
  cases hadv : stage.advance env w.db with
  | error e =>
    refine h.drop (p := .request k) (h.not_running_of_error hk hadv hno) (.refl _) fun q ↦ ?_
    exact stage?_moveRequest w.db w.db w.fires w.requests q k none
  | ok r =>
    obtain ⟨db', rest⟩ := r
    exact h.advance (p := .request k) hk hadv fun q ↦
      stage?_moveRequest w.db db' w.fires w.requests q k rest

theorem Tracked.step {a : Action} (h : Tracked w) (hno : ¬Abandoning w a)
    (hstep : Pipeline.step w a = some w') : Tracked w' := by
  cases a with
  | edit op =>
    cases hc : op.commit w.db with
    | error e =>
      simp only [Pipeline.step, hc, Option.some.injEq] at hstep
      exact hstep ▸ h
    | ok r =>
      simp only [Pipeline.step, hc, Option.some.injEq] at hstep
      subst hstep
      exact h.quiet (commit_framed hc).toExtends (fun _ _ ↦ .inl) (fun _ _ ↦ id)
  | fire jobId =>
    dsimp only [Pipeline.step] at hstep
    split at hstep
    · cases hstep
    · rename_i hfree
      split at hstep <;> cases hstep
      · exact h
      · split_ifs
        · have hnone : stage? w (.fire jobId) = none := by
            rw [stage?, hfree]
            rfl
          refine h.drop (fun run hrun ↦ ?_) (.refl _) fun q ↦
            stage?_moveFire w.db w.db w.fires w.requests q jobId (some (.checking _))
          rw [hnone] at hrun
          cases hrun
        · exact h
  | execute sender jobId =>
    dsimp only [Pipeline.step] at hstep
    split at hstep <;> cases hstep
    · rename_i call hcall
      have hmove (q : Party) := stage?_moveRequest w.db w.db w.fires w.requests q w.requests.nextId
        (some (.starting call))
      have hfree : stage? w (.request w.requests.nextId) = none := Table.get?_nextId w.requests
      refine h.quiet (.refl _) (fun q stage hq ↦ ?_) (fun q run hq ↦ (hmove q).trans ?_)
      · have hq := (hmove q).symm.trans hq
        split_ifs at hq
        · cases hq
          exact .inr ⟨call, rfl, (executeCall_ok hcall).2⟩
        · exact .inl hq
      · rw [if_neg]
        · exact hq
        · intro heq
          obtain rfl := heq
          rw [hfree] at hq
          cases hq
    · exact h
  | advanceFire env jobId => exact h.advanceFire hno hstep
  | advanceRequest env k => exact h.advanceRequest hno hstep
  | failFire jobId =>
    obtain ⟨fire, -, rfl⟩ := Option.map_eq_some_iff.mp hstep
    exact h.drop (fun run hrun ↦ hno ⟨run, hrun⟩) (.refl _) fun q ↦
      stage?_moveFire w.db w.db w.fires w.requests q jobId none
  | failRequest k =>
    obtain ⟨stage, -, rfl⟩ := Option.map_eq_some_iff.mp hstep
    exact h.drop (fun run hrun ↦ hno ⟨run, hrun⟩) (.refl _) fun q ↦
      stage?_moveRequest w.db w.db w.fires w.requests q k none
  | restart now =>
    cases hstep
    have hnone (q : Party) : stage? ⟨w.db.purgeExpired now, .empty, .empty⟩ q = none := by
      cases q <;> rfl
    refine h.quiet (extends_of_fields ⟨rfl, rfl, rfl⟩) (fun q stage hq ↦ ?_) (fun q run hq ↦ ?_)
    · rw [hnone] at hq
      cases hq
    · exact absurd ⟨q, run, hq⟩ hno

theorem Tracked.abandons {a : Action} (h : Tracked w) (hab : Abandoning w a) :
    ∃ w', Pipeline.step w a = some w' ∧ ¬NoneAbandoned w' := by
  match a, hab with
  | .advanceFire env jobId, ⟨run, hp, hraises⟩ =>
    obtain ⟨e, hf⟩ := (h.error_iff hp).mpr hraises
    obtain ⟨fire, hj, hstage⟩ := Option.bind_eq_some_iff.mp hp
    cases fire with
    | inRun stage =>
      cases hstage
      have hadv : (Fire.inRun (.running run)).advance env jobId w.db = (w.db, none) := by
        simp only [Fire.advance, Stage.advance, hf]
        exact Prod.ext (recordFailure_finish hf _ _) rfl
      refine ⟨_, Option.map_eq_some_iff.mpr ⟨_, hj, rfl⟩, ?_⟩
      rw [hadv]
      exact h.lose hp rfl fun q ↦ stage?_moveFire w.db w.db w.fires w.requests q jobId none
    | _ => cases hstage
  | .advanceRequest env k, ⟨run, hp, hraises⟩ =>
    obtain ⟨e, hf⟩ := (h.error_iff hp).mpr hraises
    have hadv : (Stage.running run).advance env w.db = .error e := by
      rw [Stage.advance, hf]
      rfl
    refine ⟨_, Option.map_eq_some_iff.mpr ⟨_, hp, rfl⟩, ?_⟩
    rw [hadv]
    exact h.lose hp rfl fun q ↦ stage?_moveRequest w.db w.db w.fires w.requests q k none
  | .failFire jobId, ⟨run, hp⟩ =>
    obtain ⟨fire, hj, -⟩ := Option.bind_eq_some_iff.mp hp
    refine ⟨_, Option.map_eq_some_iff.mpr ⟨fire, hj, rfl⟩, h.lose hp rfl fun q ↦ ?_⟩
    exact stage?_moveFire w.db w.db w.fires w.requests q jobId none
  | .failRequest k, ⟨run, hp⟩ =>
    refine ⟨_, Option.map_eq_some_iff.mpr ⟨_, hp, rfl⟩, h.lose hp rfl fun q ↦ ?_⟩
    exact stage?_moveRequest w.db w.db w.fires w.requests q k none
  | .restart now, ⟨p, run, hp⟩ =>
    refine ⟨_, rfl, h.not_noneAbandoned hp rfl fun q r hq ↦ ?_⟩
    cases q <;> cases hq

theorem Tracked.skipsInProgress (h : Tracked w) : SkipsInProgress w := by
  intro jobId job _ hrunning
  obtain ⟨k, e, hk, hjob, hstatus⟩ := Database.hasRunningExecution_iff.mp hrunning
  obtain ⟨p, run, hp, rfl⟩ := h.rows k e hk hstatus
  obtain ⟨-, -, e', hk', -, hjob'⟩ := h.placed p _ hp
  obtain rfl := Option.some.inj (hk.symm.trans hk')
  exact ⟨p, _, hp, Option.some.inj (hjob'.symm.trans hjob)⟩

end Step

/-- After a start without running executions, none is ever abandoned exactly in the runs in
which every call of `_run` that commits its row goes on to its last commit; and in these a
scheduled run is skipped as already running only while another run of the job is in progress. -/
theorem skips_only_in_progress {db : Database}
    (h : ∀ k e, db.executions.get? k = some e → e.status ≠ .running)
    (as : List Action) :
    (Always Pipeline.step NoneAbandoned (begin db) as ↔
      Guarded Pipeline.step (fun w a ↦ ¬Abandoning w a) (begin db) as) ∧
    (Guarded Pipeline.step (fun w a ↦ ¬Abandoning w a) (begin db) as →
      Always Pipeline.step SkipsInProgress (begin db) as) := by
  have hstart : Tracked (begin db) := by
    have hnone (q : Party) : stage? (begin db) q = none := by cases q <;> rfl
    refine ⟨fun k e hk he ↦ absurd he (h k e hk), fun q stage hq ↦ ?_, fun q q' r r' hq ↦ ?_⟩
    · rw [hnone] at hq
      cases hq
    · rw [hnone] at hq
      cases hq
  refine ⟨?_, fun hg ↦ ?_⟩
  · exact always_iff_guarded (fun _ h ↦ h.rows) (fun _ _ _ h hno hstep ↦ h.step hno hstep)
      (fun _ _ h hab ↦ h.abandons (not_not.mp hab)) as hstart
  · refine always_mono (fun _ h ↦ h.skipsInProgress) (guarded_always ?_ hstart hg)
    exact fun _ _ _ h hno hstep ↦ h.step hno hstep

section Sample

def shellSample : Database :=
  { sample with
    scripts := Table.empty.set 1 { sampleScript with path := "/srv/scripts/backup.sh".toList } }

def shellEnvironment : Environment :=
  { sampleEnvironment with
    host :=
      { sampleEnvironment.host with
        resolve := fun _ ↦ .ok ["srv".toList, "scripts".toList, "backup.sh".toList] } }

def manualThenFire : List Action :=
  [.execute ⟨1, 1, none⟩ 1, .advanceRequest shellEnvironment 1,
    .advanceRequest shellEnvironment 1, .fire 1]

theorem unlaunchable_script_blocks_job :
    ((exec Pipeline.step (begin shellSample) (manualThenFire ++ [.advanceFire shellEnvironment 1])).map fun w ↦
      (w.requests.keys, w.fires.keys, w.db.auditLogs.rows.getLast?.map fun r ↦ r.2.action)) =
        some ([], [], some .executionSkipped) ∧
      ¬Always Pipeline.step SkipsInProgress (begin shellSample) manualThenFire := by
  obtain ⟨w, hw⟩ : ∃ w, exec Pipeline.step (begin shellSample) manualThenFire = some w := ⟨_, rfl⟩
  have hlast : ((exec Pipeline.step (begin shellSample) manualThenFire).map fun w ↦
      (w.db.hasRunningExecution 1, w.requests.rows.isEmpty, w.fires.keys)) =
        some (true, true, [1]) := by decide
  rw [hw, Option.map_some, Option.some.injEq, Prod.mk.injEq, Prod.mk.injEq] at hlast
  obtain ⟨hrunning, hrequests, -⟩ := hlast
  have hfire : w.fires.get? 1 = some (.checking sampleJob) := by
    cases hw
    rfl
  have hother : ∀ j ≠ 1, w.fires.get? j = none := by
    cases hw
    exact fun j hj ↦ Table.get?_set_ne Table.empty _ hj
  refine ⟨by decide, fun h ↦ ?_⟩
  have hskips := h.last hw
  obtain ⟨p, stage, hp, -⟩ := hskips 1 sampleJob hfire hrunning
  cases p with
  | fire j =>
    by_cases hj : j = 1
    · rw [hj, stage?, hfire] at hp
      cases hp
    · rw [stage?, hother j hj] at hp
      cases hp
  | request k =>
    rw [stage?, Table.get?, List.isEmpty_iff.mp hrequests] at hp
    cases hp

theorem skips_only_in_progress_shell :
    (Always Pipeline.step NoneAbandoned (begin shellSample) manualThenFire ↔
      Guarded Pipeline.step (fun w a ↦ ¬Abandoning w a) (begin shellSample) manualThenFire) ∧
    (Guarded Pipeline.step (fun w a ↦ ¬Abandoning w a) (begin shellSample) manualThenFire →
      Always Pipeline.step SkipsInProgress (begin shellSample) manualThenFire) :=
  skips_only_in_progress (fun _ _ hk ↦ (Option.some_ne_none _ hk.symm).elim) manualThenFire

end Sample

end CronPanel.Scheduler.Abandoned
