import CronPanel.Library.Paging
import CronPanel.Api.Pages
import CronPanel.Access.Writes
import CronPanel.Access.Ledger
import CronPanel.Scheduler.Chronicle

namespace CronPanel.Access.Pages

open Library.Strings Library.Tables Library.Fallible Library.Run Library.Paging
open Core.Permissions Core.Security Data.Records Data.Repositories Services.CronJobs
open Services.Executions Scheduler.Pipeline Scheduler.Abandoned Scheduler.Chronicle
open Api.Errors Api.Operations Api.Frames Api.Requests Api.Pages Writes Ledger

/-- The page of a job's history that a request of the sender is answered with. -/
def historyPage (jobId : ℕ) (limit : ℤ) (w : World) (sender : Sender) (offset : ℕ) :
    Option (List CronJobHistoryResponse) :=
  (getCronJobHistory sender jobId limit offset w.db).toOption

/-- The history of a job, as the responses show it. -/
def historyRows (jobId : ℕ) (w : World) : List CronJobHistoryResponse :=
  (w.db.cronJobHistory.rows.filter fun r ↦ r.2.cronJobId = jobId).map toHistoryResponse

def executionsPage (jobId : Option ℕ) (status : Option Text) (limit : ℤ) (w : World)
    (sender : Sender) (offset : ℕ) : Option (List ExecutionResponse) :=
  (listExecutions sender jobId status limit offset w.db).toOption

def hasFullAccess (db : Database) (id : ℕ) : Bool :=
  (db.users.get? id).any fun user ↦ isFullAccessRole user.role

/-- The conditions of a listing of executions on a row, for a reader. -/
def isListed (reader : ℕ) (jobId : Option ℕ) (status : Option Text) (db : Database)
    (execution : Execution) : Bool :=
  (hasFullAccess db reader || execution.cronJobId.any (db.listOwnedJobIds reader).contains) &&
    jobId.all (fun id ↦ execution.cronJobId == some id) &&
    status.all (fun status ↦ status.isEmpty || status == execution.status.name)

def listing (reader : ℕ) (jobId : Option ℕ) (status : Option Text) (db : Database) :
    List (ℕ × Execution) :=
  (db.executions.rows.filter fun r ↦ isListed reader jobId status db r.2).reverse

/-- One account reads the pages, and no request takes the access to all jobs away from it. -/
def KeepsAccess (bcrypt : Bcrypt) (settings : Settings) (reader : ℕ)
    (w : Reading World ExecutionResponse) : Event Scheduler.Chronicle.Action Sender → Prop
  | .act a => ∀ v : World, step bcrypt settings w.store a = some v →
    hasFullAccess w.store.db reader → hasFullAccess v.db reader
  | .next sender => sender.userId = reader

instance {bcrypt : Bcrypt} {settings : Settings} {reader : ℕ} (w : Reading World ExecutionResponse)
    (e : Event Scheduler.Chronicle.Action Sender) :
    Decidable (KeepsAccess bcrypt settings reader w e) :=
  match e with
  | .act a =>
    match h : step bcrypt settings w.store a with
    | none => isTrue fun v hv ↦ by simp [h] at hv
    | some v =>
      decidable_of_iff (hasFullAccess w.store.db reader → hasFullAccess v.db reader)
        (by simp [KeepsAccess, h])
  | .next sender => inferInstanceAs (Decidable (sender.userId = reader))

/-- A step that writes no job and no history. -/
structure JobsKept (db db' : Database) : Prop where
  cronJobs : db'.cronJobs = db.cronJobs
  cronJobHistory : db'.cronJobHistory = db.cronJobHistory

section Steps

variable {w w' : World} {env : Environment} {db db' : Database}

theorem JobsKept.refl (db : Database) : JobsKept db db := ⟨rfl, rfl⟩

theorem advance_kept {stage : Stage} {rest : Option Stage}
    (h : stage.advance env db = .ok (db', rest)) : JobsKept db db' := by
  cases stage with
  | starting call =>
    obtain ⟨⟨run, db₁⟩, hs, he⟩ := bind_eq_ok.mp h
    cases he
    obtain ⟨resolved, -, -, -, rfl⟩ := startRun_eq_ok hs
    exact ⟨rfl, rfl⟩
  | running run =>
    obtain ⟨db₁, hf, he⟩ := bind_eq_ok.mp h
    cases he
    obtain ⟨result, row, job, script, -, -, -, -, rfl⟩ := finishRun_eq_ok hf
    exact ⟨rfl, rfl⟩

theorem recordFailure_kept (now : Instant) (jobId : ℕ) (job : CronJob) (e : ExecutionError)
    (db : Database) : JobsKept db (Scheduler.Jobs.recordFailure now jobId job e db) := by
  unfold Scheduler.Jobs.recordFailure
  cases Scheduler.Jobs.skipReason e <;> exact ⟨rfl, rfl⟩

theorem fire_kept {fire : Fire} {jobId : ℕ} : JobsKept db (fire.advance env jobId db).1 := by
  cases fire with
  | checking job =>
    simp only [Fire.advance]
    split_ifs
    · exact ⟨rfl, rfl⟩
    · exact .refl db
  | calling job =>
    simp only [Fire.advance]
    split
    · exact recordFailure_kept env.now jobId job .notFound db
    · exact .refl db
  | inRun stage =>
    simp only [Fire.advance]
    cases hs : stage.advance env db with
    | error e => exact recordFailure_kept env.now jobId _ _ db
    | ok r =>
      obtain ⟨db₁, rest⟩ := r
      exact advance_kept hs

theorem pipeline_jobs {a : Scheduler.Pipeline.Action} (h : Scheduler.Pipeline.step w a = some w') :
    JobsKept w.db w'.db ∨ ∃ (op : Operation) (n : Notification), op.commit w.db = .ok (w'.db, n) := by
  cases a with
  | edit op =>
    cases hc : op.commit w.db with
    | error e =>
      simp only [Scheduler.Pipeline.step, hc, Option.some.injEq] at h
      exact .inl (h ▸ .refl _)
    | ok r =>
      simp only [Scheduler.Pipeline.step, hc, Option.some.injEq] at h
      subst h
      exact .inr ⟨op, r.2, hc⟩
  | fire jobId =>
    left
    dsimp only [Scheduler.Pipeline.step] at h
    split at h
    · cases h
    · split at h <;> cases h
      · exact .refl _
      · split_ifs <;> exact .refl _
  | execute sender jobId =>
    left
    dsimp only [Scheduler.Pipeline.step] at h
    split at h <;> cases h <;> exact .refl _
  | advanceFire env jobId =>
    obtain ⟨fire, -, rfl⟩ := step_advanceFire h
    exact .inl fire_kept
  | advanceRequest env k =>
    obtain ⟨stage, -, rfl⟩ := Option.map_eq_some_iff.mp h
    cases hadv : stage.advance env w.db with
    | error e => exact .inl (.refl _)
    | ok r =>
      obtain ⟨db', rest⟩ := r
      exact .inl (advance_kept hadv)
  | failFire jobId =>
    obtain ⟨fire, -, rfl⟩ := Option.map_eq_some_iff.mp h
    exact .inl (.refl _)
  | failRequest k =>
    obtain ⟨stage, -, rfl⟩ := Option.map_eq_some_iff.mp h
    exact .inl (.refl _)
  | restart now =>
    cases h
    exact .inl ⟨rfl, rfl⟩

variable {bcrypt : Bcrypt} {settings : Settings}

theorem step_jobs {a : Scheduler.Chronicle.Action} (h : step bcrypt settings w a = some w') :
    JobsKept w.db w'.db ∨ ∃ (op : Operation) (n : Notification), op.commit w.db = .ok (w'.db, n) := by
  cases a with
  | pipeline a => exact pipeline_jobs h
  | account r =>
    cases h
    have hframe := serve_frame bcrypt settings w.db r
    exact .inl ⟨hframe.cronJobs, hframe.cronJobHistory⟩

/-- The history of a job only grows, at its end. -/
theorem step_history {a : Scheduler.Chronicle.Action} (h : step bcrypt settings w a = some w')
    (jobId : ℕ) :
    historyRows jobId w <+: historyRows jobId w' := by
  rcases step_jobs h with hkept | ⟨op, n, hcommit⟩
  · rw [historyRows, historyRows, hkept.cronJobHistory]
  · rcases commit_recorded hcommit with hsame | ⟨id, action, changes, row, hrecorded⟩
    · rw [historyRows, historyRows, hsame.history]
    · obtain ⟨entry, -, -, -, hinsert⟩ := hrecorded.history
      rw [historyRows, historyRows, hinsert, Table.rows_insert]
      exact ((List.prefix_append _ _).filter _).map _

theorem step_owner {a : Scheduler.Chronicle.Action} (h : step bcrypt settings w a = some w')
    {id : ℕ} {job : CronJob}
    (hjob : w.db.cronJobs.get? id = some job) :
    ∃ job', w'.db.cronJobs.get? id = some job' ∧ job'.ownerId = job.ownerId := by
  rcases step_jobs h with hkept | ⟨op, n, hcommit⟩
  · exact ⟨job, hkept.cronJobs ▸ hjob, rfl⟩
  · exact (commit_authorized hcommit).owner id job hjob

/-- Rows keep their job, and a status once it is final. -/
theorem step_execution (hw : Chronicled w) {a : Scheduler.Chronicle.Action}
    (h : step bcrypt settings w a = some w')
    {k : ℕ} {e : Execution} (hk : w.db.executions.get? k = some e) :
    ∃ e', w'.db.executions.get? k = some e' ∧ e'.cronJobId = e.cronJobId ∧
      (e.status ≠ .running → e'.status = e.status) := by
  by_cases hrunning : e.status = .running
  · cases step_change h with
    | quiet he => exact ⟨e, he ▸ hk, rfl, fun _ ↦ rfl⟩
    | start p env call run _ hs =>
      obtain ⟨resolved, -, -, rfl, hdb⟩ := startRun_eq_ok hs
      refine ⟨e, ?_, rfl, fun _ ↦ rfl⟩
      rw [hdb]
      exact (Table.get?_set_ne _ _ (Table.lt_nextId hk).ne).trans hk
    | finish p env run _ hf =>
      obtain ⟨result, row, job, script, -, hrow, -, -, hdb⟩ := finishRun_eq_ok hf
      rw [hdb]
      change ∃ e', (w.db.executions.set run.executionId _).get? k = some e' ∧ _
      rw [Table.get?_set]
      split_ifs with hsame
      · obtain rfl := hsame
        obtain rfl := Option.some.inj (hrow.symm.trans hk)
        exact ⟨_, rfl, rfl, fun hne ↦ absurd hrunning hne⟩
      · exact ⟨e, hk, rfl, fun _ ↦ rfl⟩
  · exact ⟨e, hw.final_kept (step_change h) hk hrunning, rfl, fun _ ↦ rfl⟩

end Steps

section Listings

variable {bcrypt : Bcrypt} {settings : Settings} {w w' : World} {db : Database} {reader : ℕ}
variable {jobId : Option ℕ} {status : Option Text} {limit : ℤ}

theorem historyPage_eq {jobId : ℕ} {w : World} {sender : Sender} {offset : ℕ}
    {page : List CronJobHistoryResponse} (h : historyPage jobId limit w sender offset = some page) :
    page = pageAt (pageSize limit) offset (historyRows jobId w) := by
  rw [getCronJobHistory_ok (toOption_eq_some.mp h), Database.listForJob, page_eq,
    historyRows, pageAt, List.map_take, List.map_drop]

theorem any_contains_singleton (x : Option ℕ) (id : ℕ) :
    x.any [id].contains = (x == some id) := by
  cases x with
  | none => rfl
  | some k =>
    by_cases h : k = id
    · simp [h]
    · simp [h, Ne.symm h]

/-- The listing of a reader, whatever his role. -/
theorem listExecutions_eq {actor : Actor} (hactor : db.users.get? actor.id = some actor.user)
    (offset : ℕ) : Services.Executions.listExecutions db actor jobId status limit offset =
      pageAt (pageSize limit) offset (listing actor.id jobId status db) := by
  have hfull : hasFullAccess db actor.id = isFullAccessRole actor.user.role := by
    rw [hasFullAccess, hactor, Option.any_some]
  have hempty (h : ∀ e, isListed actor.id jobId status db e = false) :
      [] = pageAt (pageSize limit) offset (listing actor.id jobId status db) := by
    rw [listing, List.filter_eq_nil_iff.mpr fun r _ ↦ by simp [h r.2], pageAt, List.reverse_nil,
      List.drop_nil, List.take_nil]
  have hrows {ids : Option (List ℕ)} (h : ∀ e : Execution,
      (ids.all (fun ids ↦ e.cronJobId.any ids.contains) &&
        status.all fun status ↦ status.isEmpty || status == e.status.name) =
          isListed actor.id jobId status db e) :
      db.listExecutions ids status limit offset =
        pageAt (pageSize limit) offset (listing actor.id jobId status db) := by
    rw [Database.listExecutions, page_eq, listing, pageAt]
    simp only [h]
  unfold Services.Executions.listExecutions
  split_ifs with hrole
  · refine hrows fun e ↦ ?_
    rw [isListed, hfull, hrole, Bool.true_or, Bool.true_and]
    cases jobId with
    | none => rfl
    | some id => rw [Option.map_some, Option.all_some, any_contains_singleton, Option.all_some]
  · rw [Bool.not_eq_true] at hrole
    have hrestricted (e : Execution) : isListed actor.id jobId status db e =
        (e.cronJobId.any (db.listOwnedJobIds actor.id).contains &&
          jobId.all (fun id ↦ e.cronJobId == some id) &&
          status.all fun status ↦ status.isEmpty || status == e.status.name) := by
      rw [isListed, hfull, hrole, Bool.false_or]
    dsimp only
    cases jobId with
    | none =>
      dsimp only
      split_ifs with hnone
      · refine hempty fun e ↦ ?_
        rw [hrestricted, List.isEmpty_iff.mp hnone]
        cases e.cronJobId <;> rfl
      · exact hrows fun e ↦ by rw [hrestricted, Option.all_none, Bool.and_true, Option.all_some]
    | some id =>
      dsimp only
      split_ifs with hmem
      · refine hrows fun e ↦ ?_
        rw [hrestricted, Option.all_some, any_contains_singleton, Option.all_some]
        by_cases hid : e.cronJobId = some id
        · rw [hid, Option.any_some, hmem, Bool.true_and]
        · rw [beq_eq_false_iff_ne.mpr hid, Bool.and_false]
      · rw [Bool.not_eq_true] at hmem
        refine hempty fun e ↦ ?_
        rw [hrestricted, Option.all_some]
        by_cases hid : e.cronJobId = some id
        · rw [hid, Option.any_some, hmem, Bool.false_and, Bool.false_and]
        · rw [beq_eq_false_iff_ne.mpr hid, Bool.and_false, Bool.false_and]

theorem executionsPage_keys {sender : Sender} {offset : ℕ} {page : List ExecutionResponse}
    (h : executionsPage jobId status limit w sender offset = some page) :
    page.map ExecutionResponse.id =
      pageAt (pageSize limit) offset ((listing sender.userId jobId status w.db).map Prod.fst) := by
  obtain ⟨call, hcall, rfl⟩ := listExecutions_ok (toOption_eq_some.mp h)
  obtain ⟨user, huser, -, -, rfl⟩ := Panel.requirePermission_ok hcall
  rw [listExecutions_eq huser, List.map_map, pageAt, pageAt, ← List.map_drop, ← List.map_take]
  rfl

theorem isListed_iff {e : Execution} : isListed reader jobId status db e ↔
    (hasFullAccess db reader ∨ ∃ id job, e.cronJobId = some id ∧
      db.cronJobs.get? id = some job ∧ job.ownerId = reader) ∧
    (∀ id, jobId = some id → e.cronJobId = some id) ∧
    ∀ t, status = some t → t = [] ∨ t = e.status.name := by
  have howned : e.cronJobId.any (db.listOwnedJobIds reader).contains ↔
      ∃ id job, e.cronJobId = some id ∧ db.cronJobs.get? id = some job ∧ job.ownerId = reader := by
    simp only [Option.any_eq_true, List.contains_iff_mem, Database.listOwnedJobIds, List.mem_map,
      List.mem_filter, decide_eq_true_eq, Prod.exists, exists_and_right, exists_eq_right,
      Table.mem_rows]
    grind
  simp only [isListed, Bool.and_eq_true, Bool.or_eq_true, howned, Option.all_eq_true, beq_iff_eq,
    List.isEmpty_iff, and_assoc]

/-- What a reader is shown stays in his listing, in its place among the others. -/
theorem step_listing (hstatus : status ≠ some Status.running.name) (hw : Chronicled w)
    {a : Scheduler.Chronicle.Action} (h : step bcrypt settings w a = some w')
    (hfull : hasFullAccess w.db reader → hasFullAccess w'.db reader) :
    ((listing reader jobId status w.db).map Prod.fst).Sublist
      ((listing reader jobId status w'.db).map Prod.fst) := by
  rw [listing, listing, List.map_reverse, List.map_reverse, List.reverse_sublist]
  refine Table.sublist_keys ?_
  intro k e hk hlisted
  obtain ⟨hreach, hjob, hfilter⟩ := isListed_iff.mp hlisted
  obtain ⟨e', hk', hid, hfinal⟩ := step_execution hw h hk
  refine ⟨e', hk', isListed_iff.mpr ⟨?_, ?_, ?_⟩⟩
  · refine hreach.imp hfull ?_
    intro howned
    obtain ⟨id, job, hsome, hget, howner⟩ := howned
    obtain ⟨job', hget', howner'⟩ := step_owner h hget
    exact ⟨id, job', hid.trans hsome, hget', howner'.trans howner⟩
  · intro id hsome
    exact hid.trans (hjob id hsome)
  · intro t ht
    refine (hfilter t ht).imp_right fun hname ↦ ?_
    have hdone : e.status ≠ .running := by
      intro hrunning
      rw [hname, hrunning] at ht
      exact hstatus ht
    rw [hname, hfinal hdone]

theorem getExecution_listed {sender : Sender} {k : ℕ} {response : ExecutionResponse}
    (h : getExecution sender k db = .ok response)
    (hjob : ∀ id, jobId = some id → response.cronJobId = some id)
    (hstatus : ∀ t, status = some t → t = [] ∨ t = response.status) :
    k ∈ (listing sender.userId jobId status db).map Prod.fst := by
  obtain ⟨call, hcall, h⟩ := bind_eq_ok.mp h
  obtain ⟨execution, hexecution, h⟩ := bind_eq_ok.mp h
  cases h
  obtain ⟨user, huser, -, -, rfl⟩ := Panel.requirePermission_ok hcall
  replace hexecution := mapError_eq_ok.mp hexecution
  unfold Services.Executions.getExecution at hexecution
  split at hexecution
  · cases hexecution
  · rename_i found hget
    split at hexecution
    · cases hexecution
    · rename_i job hbind
      split_ifs at hexecution with hreach
      cases hexecution
      obtain ⟨id, hid, hjobRow⟩ := Option.bind_eq_some_iff.mp hbind
      refine List.mem_map.mpr ⟨(k, execution), List.mem_reverse.mpr (List.mem_filter.mpr
        ⟨Table.mem_rows.mpr hget, isListed_iff.mpr ⟨?_, hjob, hstatus⟩⟩), rfl⟩
      rcases canManage_iff.mp hreach with howner | hrole
      · exact .inr ⟨id, job, hid, hjobRow, howner⟩
      · left
        rw [hasFullAccess, huser]
        exact hrole

end Listings

section Panel

variable (bcrypt : Bcrypt) (settings : Settings)

/-- The pages of a job's history, read one after the other by whoever may, between any steps of the
others and in any state, are its entries from the first on, each once and none left out; they are
the whole history once a page comes short. -/
theorem history_pages_exact (w : World) (jobId : ℕ) (limit : ℤ)
    (events : List (Event Scheduler.Chronicle.Action Sender)) :
    Always (advance (step bcrypt settings) (historyPage jobId limit) (pageSize limit))
        (fun v ↦ v.pages.flatten <+: historyRows jobId v.store) ⟨w, []⟩ events ∧
      Guarded (advance (step bcrypt settings) (historyPage jobId limit) (pageSize limit))
        (fun v e ↦ ∀ sender v', e = .next sender →
          advance (step bcrypt settings) (historyPage jobId limit) (pageSize limit) v e = some v' →
          Ended (pageSize limit) v'.pages → v'.pages.flatten = historyRows jobId v'.store)
        ⟨w, []⟩ events := by
  refine appended_exact (I := fun _ ↦ True) ?_ ?_ trivial events
  · intro v a v' _ h
    exact ⟨trivial, step_history h jobId⟩
  · intro v sender offset page h
    exact historyPage_eq h

/-- The pages of the executions, which begin with the newest, miss none: what a reader could have
read by its id when he began has come in one of them once a page comes short, whatever is started
and finished in between. -/
theorem executions_pages_complete {db : Database} (hnone : ∀ k, db.executions.get? k = none)
    (hlog : Services.Trail.executionLog db = []) {as : List Scheduler.Chronicle.Action} {w : World}
    (hw : exec (step bcrypt settings) (begin db) as = some w) (sender : Sender) (jobId : Option ℕ)
    {status : Option Text} (hstatus : status ≠ some Status.running.name) (limit : ℤ)
    {events : List (Event Scheduler.Chronicle.Action Sender)}
    (hkept : Guarded (advance (step bcrypt settings) (executionsPage jobId status limit)
      (pageSize limit)) (KeepsAccess bcrypt settings sender.userId) ⟨w, []⟩ events) :
    Always (advance (step bcrypt settings) (executionsPage jobId status limit) (pageSize limit))
      (fun v ↦ Ended (pageSize limit) v.pages → ∀ k response,
        getExecution sender k w.db = .ok response →
        (∀ id, jobId = some id → response.cronJobId = some id) →
        (∀ t, status = some t → t = [] ∨ t = response.status) →
          k ∈ v.pages.flatten.map ExecutionResponse.id) ⟨w, []⟩ events := by
  have hchronicled : Chronicled w :=
    (always (fun v a v' h hv ↦ h.change (step_change hv)) (chronicled_begin hnone hlog)).last hw
  have hcomplete := added_complete (I := Chronicled) ExecutionResponse.id
    (fun v ↦ (listing sender.userId jobId status v.db).map Prod.fst) ?_ ?_ hchronicled hkept
  · refine always_mono ?_ hcomplete
    intro v hv hended k response hget hjob hfilter
    exact hv hended k (getExecution_listed hget hjob hfilter)
  · intro v a t hI hkeeps h
    exact ⟨hI.change (step_change h), step_listing hstatus hI h (hkeeps t h)⟩
  · intro v who offset page hreader h
    rw [executionsPage_keys h, hreader]

end Panel

section Sample

open Sessions.Machine (sampleBcrypt sampleSettings)

def sampleWorld : World :=
  (exec (step sampleBcrypt sampleSettings) (begin Scheduler.Eligibility.sample) manualRun).getD
    (begin Scheduler.Eligibility.sample)

/-- Pages of one row, with a run started and finished after the first. -/
def sampleEvents : List (Event Scheduler.Chronicle.Action Sender) :=
  [.next ⟨1, 1, none⟩] ++ manualRun.map .act ++ [.next ⟨1, 1, none⟩, .next ⟨1, 2, none⟩]

/-- The run that comes in between pushes the row that has been read into the next page too. -/
theorem executions_pages_complete_shifted :
    ((exec (advance (step sampleBcrypt sampleSettings) (executionsPage none none 1) (pageSize 1))
      ⟨sampleWorld, []⟩ sampleEvents).map fun v ↦ v.pages.map (List.map ExecutionResponse.id)) =
        some [[1], [1], []] ∧
    Always (advance (step sampleBcrypt sampleSettings) (executionsPage none none 1) (pageSize 1))
      (fun v ↦ Ended (pageSize 1) v.pages → ∀ k response,
        getExecution ⟨1, 1, none⟩ k sampleWorld.db = .ok response →
        (∀ id, none = some id → response.cronJobId = some id) →
        (∀ t, none = some t → t = [] ∨ t = response.status) →
          k ∈ v.pages.flatten.map ExecutionResponse.id) ⟨sampleWorld, []⟩ sampleEvents := by
  have hw : exec (step sampleBcrypt sampleSettings) (begin Scheduler.Eligibility.sample) manualRun =
      some sampleWorld := rfl
  constructor
  · decide
  · exact executions_pages_complete sampleBcrypt sampleSettings (fun _ ↦ rfl) rfl hw ⟨1, 1, none⟩
      none (by decide) 1 (by decide)

end Sample

end CronPanel.Access.Pages
