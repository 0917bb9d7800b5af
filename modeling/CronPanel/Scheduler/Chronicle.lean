import CronPanel.Api.Requests
import CronPanel.Scheduler.Abandoned
import CronPanel.Sessions.Machine

namespace CronPanel.Scheduler.Chronicle

open Library.Strings Library.JsonData Library.Tables Library.Fallible Library.Run Core.Security
open Data.Records Data.Repositories Execution.Policy Execution.Executor
open Services.Audit Services.Executions Services.Trail
open Api.Errors Api.Operations Api.Executions Api.Frames Api.Requests Jobs Pipeline Abandoned
open Sessions.Machine (sampleBcrypt sampleSettings)

/-- The actions of the runs, their failures and crashes, and the requests about the accounts. -/
inductive Action
  | pipeline (a : Pipeline.Action)
  | account (r : AccountRequest)

def step (bcrypt : Bcrypt) (settings : Settings) (w : World) : Action → Option World
  | .pipeline a => Pipeline.step w a
  | .account r => some { w with db := (r.serve bcrypt settings w.db).1 }

def finalAction : Status → Option AuditAction
  | .running => none
  | .success => some .executionSucceeded
  | .failed => some .executionFailed
  | .timedOut => some .executionTimedOut

/-- An entry has the status, the exit code and the trigger of an execution. -/
structure Agrees (e : Execution) (entry : AuditLog) : Prop where
  status : detail "status".toList entry = some (.text e.status.name)
  exitCode : detail "exit_code".toList entry = some (ofOption .number e.exitCode)
  trigger : detail "trigger".toList entry = some (.text e.trigger.name)

/-- The trail says of an execution what its row says. -/
structure Recorded (db : Database) (k : ℕ) (e : Execution) : Prop where
  started : ∃ entry, startedEntries k db = [entry]
  running : e.status = .running ↔ e.finishedAt = none ∧ finalEntries k db = []
  finished : e.finishedAt = none ↔ finalEntries k db = []
  final : ∀ action, finalAction e.status = some action ↔
    ∃ entry, finalEntries k db = [entry] ∧ entry.action = action ∧ Agrees e entry

/-- What a step does to the executions, to the entries about them and to the runs under way. -/
inductive Change (w w' : World) : Prop
  | quiet (executions : w'.db.executions = w.db.executions)
    (log : executionLog w'.db = executionLog w.db)
      (stages : ∀ q run, stage? w' q = some (.running run) → stage? w q = some (.running run))
  | start (p : Party) (env : Environment) (call : RunCall) (run : Running)
      (before : stage? w p = some (.starting call))
        (result : startRun env call w.db = .ok (run, w'.db))
      (stages : ∀ q, stage? w' q = if q = p then some (.running run) else stage? w q)
  | finish (p : Party) (env : Environment) (run : Running)
      (before : stage? w p = some (.running run)) (result : finishRun env run w.db = .ok w'.db)
      (stages : ∀ q, stage? w' q = if q = p then none else stage? w q)

section Changes

variable {w w' : World} {p : Party} {env : Environment}

theorem Change.drop {rest : Option Stage} (hrest : ∀ run, rest ≠ some (.running run))
    (he : w'.db.executions = w.db.executions) (hlog : executionLog w'.db = executionLog w.db)
    (hstage : ∀ q, stage? w' q = if q = p then rest else stage? w q) : Change w w' := by
  refine .quiet he hlog ?_
  intro q run hq
  rw [hstage] at hq
  split_ifs at hq
  · exact absurd hq (hrest run)
  · exact hq

theorem Change.refl (w : World) : Change w w := .quiet rfl rfl fun _ _ ↦ id

theorem Change.advance {stage : Stage} {rest : Option Stage} (hp : stage? w p = some stage)
    (hadv : stage.advance env w.db = .ok (w'.db, rest))
    (hstage : ∀ q, stage? w' q = if q = p then rest else stage? w q) : Change w w' := by
  cases stage with
  | starting call =>
    obtain ⟨⟨run, db⟩, hs, he⟩ := bind_eq_ok.mp hadv
    obtain ⟨rfl, rfl⟩ := Prod.mk.inj (Except.ok.inj he)
    exact .start p env call run hp hs hstage
  | running run =>
    obtain ⟨db, hf, he⟩ := bind_eq_ok.mp hadv
    obtain ⟨rfl, rfl⟩ := Prod.mk.inj (Except.ok.inj he)
    exact .finish p env run hp hf hstage

theorem recordFailure_log (now : Instant) (jobId : ℕ) (job : CronJob) (e : ExecutionError)
    (db : Database) :
    executionLog (recordFailure now jobId job e db) = executionLog db := by
  unfold recordFailure
  cases skipReason e with
  | none => rfl
  | some reason => exact logged_other rfl now db

theorem advanceFire_change {jobId : ℕ} (h : Pipeline.step w (.advanceFire env jobId) = some w') :
    Change w w' := by
  obtain ⟨fire, hj, rfl⟩ := step_advanceFire h
  cases hadv : fire.advance env jobId w.db with | mk db' rest =>
  have hmove (q : Party) := stage?_moveFire w.db db' w.fires w.requests q jobId rest
  cases fire with
  | checking job =>
    simp only [Fire.advance] at hadv
    split_ifs at hadv
    · cases hadv
      exact .drop (by simp) rfl (logged_other rfl _ _) hmove
    · cases hadv
      exact .drop (by simp [stageOf]) rfl rfl hmove
  | calling job =>
    simp only [Fire.advance] at hadv
    split at hadv
    · cases hadv
      exact .drop (by simp) (recordFailure_fields _ _ _ _ _).1 (recordFailure_log _ _ _ _ _) hmove
    · cases hadv
      exact .drop (by simp [stageOf]) rfl rfl hmove
  | inRun stage =>
    simp only [Fire.advance] at hadv
    cases hs : stage.advance env w.db with
    | error e =>
      rw [hs] at hadv
      cases hadv
      exact .drop (by simp) (recordFailure_fields _ _ _ _ _).1 (recordFailure_log _ _ _ _ _) hmove
    | ok r =>
      obtain ⟨db₁, rest₁⟩ := r
      rw [hs] at hadv
      cases hadv
      have hbefore : stage? w (.fire jobId) = some stage := by
        rw [stage?, hj]
        rfl
      refine .advance hbefore hs fun q ↦ ?_
      rw [hmove]
      cases rest₁ <;> rfl

theorem advanceRequest_change {k : ℕ} (h : Pipeline.step w (.advanceRequest env k) = some w') :
    Change w w' := by
  obtain ⟨stage, hk, rfl⟩ := Option.map_eq_some_iff.mp h
  cases hadv : stage.advance env w.db with
  | error e =>
    exact .drop (p := .request k) (by simp) rfl rfl fun q ↦
      stage?_moveRequest w.db w.db w.fires w.requests q k none
  | ok r =>
    obtain ⟨db', rest⟩ := r
    exact .advance (p := .request k) hk hadv fun q ↦
      stage?_moveRequest w.db db' w.fires w.requests q k rest

theorem pipeline_change {a : Pipeline.Action} (h : Pipeline.step w a = some w') : Change w w' := by
  cases a with
  | edit op =>
    cases hc : op.commit w.db with
    | error e =>
      simp only [Pipeline.step, hc, Option.some.injEq] at h
      exact h ▸ .refl w
    | ok r =>
      simp only [Pipeline.step, hc, Option.some.injEq] at h
      subst h
      exact .quiet (commit_framed hc).executions (commit_executionLog hc) fun _ _ ↦ id
  | fire jobId =>
    dsimp only [Pipeline.step] at h
    split at h
    · cases h
    · split at h <;> cases h
      · exact .refl w
      · split_ifs
        · exact .drop (by simp [stageOf]) rfl rfl fun q ↦
            stage?_moveFire w.db w.db w.fires w.requests q jobId (some (.checking _))
        · exact .refl w
  | execute sender jobId =>
    dsimp only [Pipeline.step] at h
    split at h <;> cases h
    · rename_i call hcall
      exact .drop (by simp) rfl rfl fun q ↦
        stage?_moveRequest w.db w.db w.fires w.requests q w.requests.nextId (some (.starting call))
    · exact .refl w
  | advanceFire env jobId => exact advanceFire_change h
  | advanceRequest env k => exact advanceRequest_change h
  | failFire jobId =>
    obtain ⟨fire, -, rfl⟩ := Option.map_eq_some_iff.mp h
    exact .drop (by simp) rfl rfl fun q ↦ stage?_moveFire w.db w.db w.fires w.requests q jobId none
  | failRequest k =>
    obtain ⟨stage, -, rfl⟩ := Option.map_eq_some_iff.mp h
    exact .drop (by simp) rfl rfl fun q ↦ stage?_moveRequest w.db w.db w.fires w.requests q k none
  | restart now =>
    cases h
    refine .quiet rfl rfl ?_
    intro q run hq
    cases q <;> cases hq

theorem step_change {bcrypt : Bcrypt} {settings : Settings} {a : Action}
    (h : step bcrypt settings w a = some w') : Change w w' := by
  cases a with
  | pipeline a => exact pipeline_change h
  | account r =>
    cases h
    have hframe := serve_frame bcrypt settings w.db r
    exact .quiet hframe.executions hframe.executionLog fun _ _ ↦ id

end Changes

section Entries

variable {env : Environment} {call : RunCall} {run : Running} {db db' : Database}

theorem finalStatus_action (result : ExecutionResult) :
    finalAction (finalStatus result).1 = some (finalStatus result).2 := by
  unfold finalStatus
  split_ifs <;> rfl

theorem isFinal_finalStatus (result : ExecutionResult) : isFinal (finalStatus result).2 := by
  unfold finalStatus
  split_ifs <;> rfl

theorem isExecutionAction_of_isFinal {action : AuditAction} (h : isFinal action) :
    isExecutionAction action := by
  cases action <;> first | rfl | cases h

/-- The first commit of a run writes its row and the entry that says that it has started. -/
theorem startRun_entries (h : startRun env call db = .ok (run, db')) : ∃ entry, ∀ j,
    startedEntries j db' = startedEntries j db ++ (if j = run.executionId then [entry] else []) ∧
      finalEntries j db' = finalEntries j db := by
  obtain ⟨resolved, -, -, rfl, rfl⟩ := startRun_eq_ok h
  refine ⟨(startedEvent call resolved db.executions.nextId).entry env.now, fun j ↦ ⟨?_, ?_⟩⟩
  · have htrail := trail_recordEvent (startedEvent call resolved db.executions.nextId) rfl rfl rfl
      (fun action ↦ action = .executionStarted) env.now
      { db with executions := db.executions.set db.executions.nextId (startedExecution env.now call resolved.id) } j
    rw [startedEntries, htrail]
    simp only [startedEvent, decide_true, true_and]
    rfl
  · have htrail := trail_recordEvent (startedEvent call resolved db.executions.nextId) rfl rfl rfl
      isFinal env.now
      { db with executions := db.executions.set db.executions.nextId (startedExecution env.now call resolved.id) } j
    rw [finalEntries, htrail, if_neg fun hboth ↦ Bool.false_ne_true hboth.1, List.append_nil]
    rfl

/-- The last commit of a run writes the end of its row and the entry that says the same. -/
theorem finishRun_entries (h : finishRun env run db = .ok db') : ∃ row new entry,
    db.executions.get? run.executionId = some row ∧
    db'.executions = db.executions.set run.executionId new ∧ new.trigger = row.trigger ∧
    new.finishedAt = some env.now ∧ finalAction new.status = some entry.action ∧
    (row.trigger = run.call.trigger → Agrees new entry) ∧ ∀ j,
      startedEntries j db' = startedEntries j db ∧
        finalEntries j db' = finalEntries j db ++
          (if j = run.executionId then [entry] else []) := by
  obtain ⟨result, row, job, script, -, hrow, -, -, rfl⟩ := finishRun_eq_ok h
  have hfinal := isFinal_finalStatus result
  have haction : (finalEvent run result job script).action = (finalStatus result).2 := rfl
  have hexecution := isExecutionAction_of_isFinal (haction ▸ hfinal)
  refine ⟨row, finishedExecution env.now result row,
    (finalEvent run result job script).entry env.now, hrow, rfl, rfl,
    rfl, finalStatus_action result, ?_, fun j ↦ ⟨?_, ?_⟩⟩
  · intro htrigger
    have hcode (code : Option ℤ) :
        sanitizeValue (ofOption .number code) = ofOption .number code := by
      cases code <;> rfl
    refine ⟨rfl, ?_, ?_⟩
    · exact congrArg some (hcode result.exitCode)
    · change some (Json.text run.call.trigger.name) = some (.text row.trigger.name)
      rw [htrigger]
  · have htrail := trail_recordEvent (finalEvent run result job script) hexecution rfl rfl
      (fun action ↦ action = .executionStarted) env.now
      { db with executions := db.executions.set run.executionId (finishedExecution env.now result row) } j
    have hother :
        ¬(decide ((finalEvent run result job script).action = .executionStarted) ∧
        j = run.executionId) := by
      intro hboth
      rw [haction, decide_eq_true_eq] at hboth
      rw [hboth.1] at hfinal
      cases hfinal
    rw [startedEntries, htrail, if_neg hother, List.append_nil]
    rfl
  · have htrail :=
      trail_recordEvent (finalEvent run result job script) hexecution rfl rfl isFinal env.now
      { db with executions := db.executions.set run.executionId (finishedExecution env.now result row) } j
    rw [finalEntries, htrail, haction]
    simp only [hfinal, true_and]
    rfl

end Entries

section Invariant

theorem Recorded.congr {db db' : Database} {k : ℕ} {e : Execution} (h : Recorded db k e)
    (hstarted : startedEntries k db' = startedEntries k db)
    (hfinal : finalEntries k db' = finalEntries k db) :
    Recorded db' k e where
  started := hstarted ▸ h.started
  running := hfinal ▸ h.running
  finished := hfinal ▸ h.finished
  final := hfinal ▸ h.final

theorem Recorded.of_running {db : Database} {k : ℕ} {e : Execution} {entry : AuditLog}
    (hstatus : e.status = .running) (hfinished : e.finishedAt = none)
    (hstarted : startedEntries k db = [entry])
    (hfinal : finalEntries k db = []) : Recorded db k e where
  started := ⟨entry, hstarted⟩
  running := iff_of_true hstatus ⟨hfinished, hfinal⟩
  finished := iff_of_true hfinished hfinal
  final action := by
    refine iff_of_false ?_ ?_
    · rw [hstatus]
      intro h
      cases h
    · intro hex
      obtain ⟨entry, he, -⟩ := hex
      rw [hfinal] at he
      cases he

theorem Recorded.of_final {db : Database} {k : ℕ} {e : Execution} {now : Instant} {entry : AuditLog}
    (hstatus : finalAction e.status = some entry.action) (hfinished : e.finishedAt = some now)
    (hstarted : ∃ entry, startedEntries k db = [entry]) (hfinal : finalEntries k db = [entry])
    (hagrees : Agrees e entry) : Recorded db k e where
  started := hstarted
  running := by
    refine iff_of_false ?_ ?_
    · intro hrunning
      rw [hrunning] at hstatus
      cases hstatus
    · rw [hfinished]
      intro hboth
      cases hboth.1
  finished := by
    refine iff_of_false ?_ ?_
    · rw [hfinished]
      intro h
      cases h
    · rw [hfinal]
      exact List.cons_ne_nil entry []
  final action := by
    rw [hstatus, hfinal, Option.some.injEq]
    constructor
    · intro haction
      exact ⟨entry, rfl, haction, hagrees⟩
    · intro hex
      obtain ⟨other, hother, haction, -⟩ := hex
      cases hother
      exact haction

/-- The invariant of the runs: every row and the trail tell the same, an id that is still to
come has no entries, and every run between its two commits has its own running row. -/
structure Chronicled (w : World) : Prop where
  rows : ∀ k e, w.db.executions.get? k = some e → Recorded w.db k e
  fresh : ∀ k, w.db.executions.get? k = none → startedEntries k w.db = [] ∧ finalEntries k w.db = []
  running : ∀ p run, stage? w p = some (.running run) →
    ∃ e, w.db.executions.get? run.executionId = some e ∧
    e.status = .running ∧ e.trigger = run.call.trigger
  distinct : ∀ p q r r', stage? w p = some (.running r) → stage? w q = some (.running r') →
    r.executionId = r'.executionId → p = q

variable {w w' : World} {p : Party} {env : Environment}

theorem Chronicled.quiet (h : Chronicled w) (he : w'.db.executions = w.db.executions)
    (hlog : executionLog w'.db = executionLog w.db)
    (hstage : ∀ q run, stage? w' q = some (.running run) → stage? w q = some (.running run)) :
    Chronicled w' := by
  have hstarted (k : ℕ) : startedEntries k w'.db = startedEntries k w.db := by
    rw [startedEntries, hlog, startedEntries]
  have hfinal (k : ℕ) : finalEntries k w'.db = finalEntries k w.db := by
    rw [finalEntries, hlog, finalEntries]
  refine ⟨?_, ?_, ?_, ?_⟩
  · intro k e hk
    exact (h.rows k e (he ▸ hk)).congr (hstarted k) (hfinal k)
  · intro k hk
    rw [hstarted, hfinal]
    exact h.fresh k (he ▸ hk)
  · intro q run hq
    rw [he]
    exact h.running q run (hstage q run hq)
  · intro q q' r r' hq hq'
    exact h.distinct q q' r r' (hstage q r hq) (hstage q' r' hq')

theorem Chronicled.start (h : Chronicled w) {call : RunCall} {run : Running}
    (hs : startRun env call w.db = .ok (run, w'.db))
    (hstage : ∀ q, stage? w' q = if q = p then some (.running run) else stage? w q) :
    Chronicled w' := by
  obtain ⟨entry, hentries⟩ := startRun_entries hs
  obtain ⟨-, hcall, hid, -, hset, -, -⟩ := startRun_ok hs
  have hnone : w.db.executions.get? run.executionId = none := hid ▸ Table.get?_nextId _
  have hcases : ∀ q r, stage? w' q = some (.running r) → (q = p ∧ r = run) ∨
      (stage? w q = some (.running r) ∧ r.executionId ≠ run.executionId) := by
    intro q r hq
    rw [hstage] at hq
    split_ifs at hq with he
    · cases hq
      exact .inl ⟨he, rfl⟩
    · obtain ⟨e, hrow, -⟩ := h.running q r hq
      refine .inr ⟨hq, ?_⟩
      intro hsame
      rw [hsame, hnone] at hrow
      cases hrow
  refine ⟨?_, ?_, ?_, ?_⟩
  · intro k e hk
    obtain ⟨hstarted, hfinal⟩ := hentries k
    rw [hset, Table.get?_set] at hk
    split_ifs at hk with hnew
    · obtain ⟨hs₀, hf₀⟩ := h.fresh k (hnew ▸ hnone)
      cases hk
      rw [hs₀, if_pos hnew, List.nil_append] at hstarted
      rw [hf₀] at hfinal
      exact .of_running rfl rfl hstarted hfinal
    · rw [if_neg hnew, List.append_nil] at hstarted
      exact (h.rows k e hk).congr hstarted hfinal
  · intro k hk
    obtain ⟨hstarted, hfinal⟩ := hentries k
    rw [hset, Table.get?_set] at hk
    split_ifs at hk with hnew
    rw [hstarted, hfinal, if_neg hnew, List.append_nil]
    exact h.fresh k hk
  · intro q r hq
    rw [hset]
    obtain ⟨-, rfl⟩ | ⟨hq, hne⟩ := hcases q r hq
    · exact ⟨_, Table.get?_set_self _ _ _, rfl, hcall ▸ rfl⟩
    · rw [Table.get?_set_ne _ _ hne]
      exact h.running q r hq
  · intro q q' r r' hq hq' hsame
    obtain ⟨rfl, rfl⟩ | ⟨hq, hne⟩ := hcases q r hq
    · obtain ⟨rfl, -⟩ | ⟨-, hne⟩ := hcases q' r' hq'
      · rfl
      · exact absurd hsame.symm hne
    · obtain ⟨-, rfl⟩ | ⟨hq', -⟩ := hcases q' r' hq'
      · exact absurd hsame hne
      · exact h.distinct q q' r r' hq hq' hsame

theorem Chronicled.finish (h : Chronicled w) {run : Running} (hp : stage? w p = some (.running run))
    (hf : finishRun env run w.db = .ok w'.db)
    (hstage : ∀ q, stage? w' q = if q = p then none else stage? w q) : Chronicled w' := by
  obtain ⟨row, new, entry, hrow, hset, htrigger, hfinished, hstatus, hagrees, hentries⟩ :=
      finishRun_entries hf
  obtain ⟨row', hrow', hrunning, hcall⟩ := h.running p run hp
  obtain rfl := Option.some.inj (hrow.symm.trans hrow')
  have hcases :
      ∀ q r, stage? w' q = some (.running r) → q ≠ p ∧ stage? w q = some (.running r) := by
    intro q r hq
    rw [hstage] at hq
    split_ifs at hq with he
    exact ⟨he, hq⟩
  refine ⟨?_, ?_, ?_, ?_⟩
  · intro k e hk
    obtain ⟨hstarted, hfinal⟩ := hentries k
    rw [hset, Table.get?_set] at hk
    split_ifs at hk with hsame
    · cases hk
      have hrecorded := h.rows k row (hsame ▸ hrow)
      have hopen := (hrecorded.running.mp hrunning).2
      rw [hopen, if_pos hsame, List.nil_append] at hfinal
      exact .of_final hstatus hfinished (hstarted ▸ hrecorded.started) hfinal (hagrees hcall)
    · rw [if_neg hsame, List.append_nil] at hfinal
      exact (h.rows k e hk).congr hstarted hfinal
  · intro k hk
    obtain ⟨hstarted, hfinal⟩ := hentries k
    rw [hset, Table.get?_set] at hk
    split_ifs at hk with hsame
    rw [hstarted, hfinal, if_neg hsame, List.append_nil]
    exact h.fresh k hk
  · intro q r hq
    obtain ⟨hne, hq⟩ := hcases q r hq
    have hother :
        r.executionId ≠ run.executionId := fun hsame ↦ hne (h.distinct q p r run hq hp hsame)
    rw [hset, Table.get?_set_ne _ _ hother]
    exact h.running q r hq
  · intro q q' r r' hq hq'
    exact h.distinct q q' r r' (hcases q r hq).2 (hcases q' r' hq').2

theorem Chronicled.change (h : Chronicled w) (hc : Change w w') : Chronicled w' := by
  cases hc with
  | quiet he hlog hstage => exact h.quiet he hlog hstage
  | start p env call run _ hs hstage => exact h.start hs hstage
  | finish p env run hp hf hstage => exact h.finish hp hf hstage

/-- A row that has come to its end stays as it is. -/
theorem Chronicled.final_kept (h : Chronicled w) (hc : Change w w') {k : ℕ} {e : Execution}
    (hk : w.db.executions.get? k = some e) (hfinal : e.status ≠ .running) :
    w'.db.executions.get? k = some e := by
  cases hc with
  | quiet he => rw [he, hk]
  | start p env call run _ hs =>
    obtain ⟨-, -, hid, -, hset, -, -⟩ := startRun_ok hs
    rw [hset, Table.get?_set_ne _ _ (hid ▸ (Table.lt_nextId hk).ne), hk]
  | finish p env run hp hf =>
    obtain ⟨row, new, -, -, hset, -⟩ := finishRun_entries hf
    obtain ⟨row', hrow', hrunning, -⟩ := h.running p run hp
    have hne : k ≠ run.executionId := by
      intro hsame
      rw [hsame, hrow'] at hk
      exact hfinal (Option.some.inj hk ▸ hrunning)
    rw [hset, Table.get?_set_ne _ _ hne, hk]

end Invariant

variable {bcrypt : Bcrypt} {settings : Settings}

theorem chronicled_begin {db : Database} (hnone : ∀ k, db.executions.get? k = none)
    (hlog : executionLog db = []) :
    Chronicled (begin db) := by
  have hidle (p : Party) (run : Running) : stage? (begin db) p ≠ some (.running run) := by
    intro h
    cases p <;> cases h
  refine ⟨?_, ?_, ?_, ?_⟩
  · intro k e hk
    rw [begin, hnone] at hk
    cases hk
  · intro k _
    rw [startedEntries, finalEntries, begin, hlog]
    exact ⟨rfl, rfl⟩
  · intro p run hp
    exact absurd hp (hidle p run)
  · intro p q r r' hp
    exact absurd hp (hidle p r)

/-- In every state that the runs reach from a database without executions and without entries
about them, crashes and failures between two commits included, the trail says of every
execution what its row says, and a row with a final status never changes again. -/
theorem executions_tell_their_trail {db : Database} (hnone : ∀ k, db.executions.get? k = none)
    (hlog : executionLog db = []) {as : List Action} {w : World}
    (hw : exec (step bcrypt settings) (begin db) as = some w) (k : ℕ) (e : Execution)
    (hk : w.db.executions.get? k = some e) :
    Recorded w.db k e ∧ (e.status ≠ .running → ∀ bs : List Action,
      Always (step bcrypt settings) (fun w' ↦ w'.db.executions.get? k = some e) w bs) := by
  have hstep :
      ∀ (v : World) (a : Action) (v' : World), Chronicled v → step bcrypt settings v a = some v' →
      Chronicled v' := fun v a v' h hv ↦ h.change (step_change hv)
  have hchronicled : Chronicled w := (always hstep (chronicled_begin hnone hlog)).last hw
  refine ⟨hchronicled.rows k e hk, ?_⟩
  intro hfinal bs
  have hkept : ∀ (v : World) (a : Action) (v' : World),
      Chronicled v ∧ v.db.executions.get? k = some e → step bcrypt settings v a = some v' →
      Chronicled v' ∧ v'.db.executions.get? k = some e := by
    intro v a v' hv hstep
    obtain ⟨hc, hrow⟩ := hv
    exact ⟨hc.change (step_change hstep), hc.final_kept (step_change hstep) hrow hfinal⟩
  exact always_mono (fun _ h ↦ h.2) (always hkept ⟨hchronicled, hk⟩)

section Sample

def manualRun : List Action :=
  [.pipeline (.execute ⟨1, 1, none⟩ 1), .pipeline (.advanceRequest sampleEnvironment 1),
    .pipeline (.advanceRequest sampleEnvironment 1)]

theorem executions_tell_their_trail_backup : ∃ w e,
    exec (step sampleBcrypt sampleSettings) (begin Eligibility.sample) manualRun = some w ∧
      w.db.executions.get? 1 = some e ∧ e.status = .success ∧ Recorded w.db 1 e ∧
      ∀ bs, Always (step sampleBcrypt sampleSettings)
        (fun w' ↦ w'.db.executions.get? 1 = some e) w bs := by
  obtain ⟨w, hw⟩ :
      ∃ w, exec (step sampleBcrypt sampleSettings)
      (begin Eligibility.sample) manualRun = some w := ⟨_, rfl⟩
  have hlast :
      ((exec (step sampleBcrypt sampleSettings) (begin Eligibility.sample) manualRun).bind fun w ↦
      (w.db.executions.get? 1).map fun e ↦ e.status) = some .success := by decide
  rw [hw] at hlast
  obtain ⟨e, he, hstatus⟩ := Option.map_eq_some_iff.mp hlast
  obtain ⟨hrecorded, hkept⟩ := executions_tell_their_trail (fun _ ↦ rfl) rfl hw 1 e he
  refine ⟨w, e, hw, he, hstatus, hrecorded, hkept ?_⟩
  rw [hstatus]
  decide

end Sample

end CronPanel.Scheduler.Chronicle
