import CronPanel.Access.Interleaved
import CronPanel.Access.References

namespace CronPanel.Access.Dangling

open Library.Strings Library.Tables Library.Fallible Library.Run Library.Sessions Library.WriteBack
open Data.Records Data.Repositories Data.Repositories.Database Cron.Elements Schemas.Bodies
open Services.CronJobs Services.Scripts Services.Columns Services.RowSnapshots
open Api.Errors Api.Operations Api.Stages Scheduler.Eligibility References Interleaved

/-- A commit finds what its request has checked: a script that it newly links to a job that is
still there is not deleted, and no job links the script that it deletes. -/
def FindsLinks (db : Database) (_ : Operation) (stage : Stage) : Prop :=
  match stage.progress with
  | .ready (.createCronJob body) => ∀ k, body.scriptId = some k → (db.liveScript k).isSome
  | .ready (.updateCronJob id body job) =>
    ∀ k, body.scriptId = some k → job.scriptId ≠ some k → (db.liveJob id).isSome →
      (db.liveScript k).isSome
  | .ready (.deleteScript id _) => db.isReferencedByActiveJob id = false
  | _ => True

section

variable {db db' : Database} {call : Call} {id : ℕ} {body : CronJobUpdate} {job : CronJob}

theorem linked_of_eq (hdb : Linked db) (hjobs : db'.cronJobs = db.cronJobs)
    (hscripts : db'.scripts = db.scripts) : Linked db' := by
  unfold Linked liveJob liveScript
  rw [hjobs, hscripts]
  exact hdb

theorem isReferencedByActiveJob_deleted {script : Script} (hdb : Linked db)
    (hget : db.scripts.get? id = some script) (hdeleted : script.isDeleted = true) :
    db.isReferencedByActiveJob id = false := by
  rw [Bool.eq_false_iff]
  intro hused
  obtain ⟨j, job, hjob, hlink⟩ := isReferencedByActiveJob_iff.mp hused
  obtain ⟨found, hfound⟩ := hdb j job id hjob hlink
  obtain ⟨hsame, hkept⟩ := liveScript_eq_some.mp hfound
  obtain rfl := Option.some.inj (hget.symm.trans hsame)
  rw [hdeleted] at hkept
  cases hkept

/-- A job that is written back keeps its link, or has that of the edit. -/
theorem linked_of_flushed {now : Instant} {edited : CronJob} (h : Flushed now id job edited db db')
    (hdb : Linked db) (hdeleted : edited.isDeleted = job.isDeleted ∨ edited.isDeleted = true)
    (hlink : edited.scriptId = job.scriptId ∨ ∀ k, edited.scriptId = some k →
      (db.liveJob id).isSome → ∃ script, db.liveScript k = some script) : Linked db' := by
  rcases h.cronJobs with ⟨-, hsame⟩ | ⟨-, stored, hget, hset⟩
  · exact linked_of_eq hdb hsame h.scripts
  · refine hdb.set_job h.scripts hset fun hkept k hk ↦ ?_
    have hlive : stored.isDeleted = false := by
      rcases hdeleted with hsame | hgone
      · rwa [writeJob, hsame, writeColumn_same] at hkept
      · rcases writeColumn_cases job.isDeleted edited.isDeleted stored.isDeleted with hw | ⟨-, hw⟩
        · rwa [writeJob, hw] at hkept
        · rw [writeJob, hw, hgone] at hkept
          cases hkept
    have hstored : db.liveJob id = some stored := liveJob_eq_some.mpr ⟨hget, hlive⟩
    rcases writeColumn_cases job.scriptId edited.scriptId stored.scriptId with hw | ⟨hne, hw⟩
    · rw [writeJob, hw] at hk
      exact hdb id stored k hstored hk
    · rw [writeJob, hw] at hk
      rcases hlink with hsame | hlink
      · exact absurd hsame hne
      · exact hlink k hk (by rw [hstored]; rfl)

theorem updateCronJobFrom_linked (hdb : Linked db) (hbody : Texts body)
    (hfinds : ∀ k, body.scriptId = some k → job.scriptId ≠ some k → (db.liveJob id).isSome →
      (db.liveScript k).isSome)
    (h : updateCronJobFrom call id body job db = some db') : Linked db' := by
  obtain ⟨edited, changes, hedit, hflushed⟩ := updateCronJobFrom_some hbody h
  obtain ⟨-, hdeleted, hscript, -⟩ := editCronJob_ok hbody hedit
  refine linked_of_flushed hflushed hdb (.inl hdeleted) ?_
  cases hk : body.scriptId with
  | none =>
    rw [hk] at hscript
    exact .inl hscript
  | some k =>
    rw [hk] at hscript
    by_cases hsame : job.scriptId = some k
    · exact .inl (hscript.trans hsame.symm)
    · refine .inr fun k' hk' hlive ↦ ?_
      obtain rfl := Option.some.inj (hscript.symm.trans hk')
      exact Option.isSome_iff_exists.mp (hfinds k hk hsame hlive)

/-- A link to a script that has been deleted since it was checked dangles. -/
theorem updateCronJobFrom_dangles (hbody : Texts body) {k : ℕ} (hk : body.scriptId = some k)
    (hne : job.scriptId ≠ some k) (hlive : (db.liveJob id).isSome)
    (hgone : ¬(db.liveScript k).isSome) :
    ∃ db', updateCronJobFrom call id body job db = some db' ∧ ¬Linked db' := by
  obtain ⟨stored, hstored⟩ := Option.isSome_iff_exists.mp hlive
  obtain ⟨hget, hkept⟩ := liveJob_eq_some.mp hstored
  obtain ⟨⟨edited, changes⟩, hedit⟩ := Updates.editCronJob_succeeds hbody job
  obtain ⟨-, hdeleted, hscript, -⟩ := editCronJob_ok hbody hedit
  rw [hk] at hscript
  have hlink : edited.scriptId ≠ job.scriptId := fun heq ↦ hne (heq.symm.trans hscript)
  have hchanged : edited ≠ job := fun heq ↦ hlink (congrArg Data.Records.CronJob.scriptId heq)
  obtain ⟨db', hcommit, hscripts, hset⟩ := updateCronJobFrom_writes hbody hedit hchanged hget
  refine ⟨db', hcommit, fun hlinked ↦ hgone ?_⟩
  have hrow : db'.liveJob id = some (writeJob call.now job edited stored) := by
    refine liveJob_eq_some.mpr ⟨by rw [hset, Table.get?_set_self], ?_⟩
    rw [writeJob, hdeleted, writeColumn_same]
    exact hkept
  have hwritten : (writeJob call.now job edited stored).scriptId = some k := by
    rw [writeJob, writeColumn_ne hlink, hscript]
    rfl
  obtain ⟨script, hfound⟩ := hlinked id _ k hrow hwritten
  unfold liveScript at hfound ⊢
  rw [hscripts] at hfound
  rw [hfound]
  rfl

theorem commit_linked {op : Operation} {stage : Stage} (hdb : Linked db)
    (hknown : Known (fun _ ↦ True) stage.progress) (hfinds : FindsLinks db op stage)
    (h : stage.commit db = some db') : Linked db' := by
  obtain ⟨call, progress⟩ := stage
  cases progress with
  | accepted request => cases h
  | loaded request => cases h
  | ready request =>
    cases request with
    | createCronJob body =>
      obtain ⟨s, hs⟩ := hknown
      obtain ⟨row, created, hcreated, hscripts, hset, hlink, -⟩ :=
        createCronJobFrom_some call db hs
      obtain rfl := Option.some.inj (hcreated.symm.trans h)
      refine hdb.set_job hscripts hset fun _ k hk ↦ ?_
      exact Option.isSome_iff_exists.mp (hfinds k (hlink.symm.trans hk))
    | updateCronJob id body job => exact updateCronJobFrom_linked hdb hknown.1 hfinds h
    | updateCronJobStatus id isActive job =>
      exact linked_of_flushed (updateCronJobStatusFrom_some h) hdb (.inl rfl) (.inl rfl)
    | deleteCronJob id job =>
      exact linked_of_flushed (deleteCronJobFrom_some h) hdb (.inr rfl) (.inl rfl)
    | createScript body path =>
      obtain ⟨hjobs, script, hscripts, hkept⟩ := createScriptFrom_some h
      exact hdb.set_script hjobs hscripts (.inl hkept)
    | updateScript id script edited changes =>
      obtain ⟨hjobs, hsame | ⟨stored, written, hget, hset, hdeleted⟩⟩ :=
        updateScriptFrom_some hknown h
      · exact linked_of_eq hdb hjobs hsame
      · refine hdb.set_script hjobs hset ?_
        cases hstored : stored.isDeleted with
        | false => exact .inl (hdeleted.trans hstored)
        | true => exact .inr (isReferencedByActiveJob_deleted hdb hget hstored)
    | deleteScript id script =>
      obtain ⟨hjobs, stored, deleted, -, hset, -⟩ := deleteScriptFrom_some hknown h
      exact hdb.set_script hjobs hset (.inr hfinds)

/-- A commit that does not find what its request has checked leaves a dangling link. -/
theorem commit_dangles {op : Operation} {stage : Stage} (hdb : Linked db)
    (hknown : Known (fun _ ↦ True) stage.progress) (hfinds : ¬FindsLinks db op stage) :
    ∃ db', stage.commit db = some db' ∧ ¬Linked db' := by
  obtain ⟨call, progress⟩ := stage
  cases progress with
  | accepted request => exact absurd trivial hfinds
  | loaded request => exact absurd trivial hfinds
  | ready request =>
    cases request with
    | createCronJob body =>
      simp only [FindsLinks, not_forall] at hfinds
      obtain ⟨k, hk, hgone⟩ := hfinds
      obtain ⟨s, hs⟩ := hknown
      obtain ⟨row, db', hcommit, hscripts, hset, hlink, hkept, -⟩ :=
        createCronJobFrom_some call db hs
      refine ⟨db', hcommit, fun hlinked ↦ hgone ?_⟩
      have hrow : db'.liveJob db.cronJobs.nextId = some (withSchedule row s) :=
        liveJob_eq_some.mpr ⟨by rw [hset, Table.get?_set_self], hkept⟩
      obtain ⟨script, hfound⟩ := hlinked _ _ k hrow (hlink.trans hk)
      unfold liveScript at hfound ⊢
      rw [hscripts] at hfound
      rw [hfound]
      rfl
    | updateCronJob id body job =>
      simp only [FindsLinks, not_forall] at hfinds
      obtain ⟨k, hk, hne, hlive, hgone⟩ := hfinds
      exact updateCronJobFrom_dangles hknown.1 hk hne hlive hgone
    | deleteScript id script =>
      have hused : db.isReferencedByActiveJob id := by
        rw [← Bool.not_eq_false]
        exact hfinds
      obtain ⟨j, job, hjob, hlink⟩ := isReferencedByActiveJob_iff.mp hused
      obtain ⟨stored, hstored⟩ := hdb j job id hjob hlink
      have hget := (liveScript_eq_some.mp hstored).1
      cases hcommit : deleteScriptFrom call id script db with
      | none =>
        rw [deleteScriptFrom, hget] at hcommit
        cases hcommit
      | some db' =>
        refine ⟨db', hcommit, fun hlinked ↦ ?_⟩
        obtain ⟨hjobs, -, deleted, -, hset, hgone⟩ := deleteScriptFrom_some hknown hcommit
        have hrow : db'.liveJob j = some job := by
          unfold liveJob at hjob ⊢
          rwa [hjobs]
        obtain ⟨found, hfound⟩ := hlinked j job id hrow hlink
        obtain ⟨hwritten, hkept⟩ := liveScript_eq_some.mp hfound
        rw [hset, Table.get?_set_self] at hwritten
        obtain rfl := Option.some.inj hwritten
        rw [hgone] at hkept
        cases hkept
    | updateCronJobStatus id isActive job => exact absurd trivial hfinds
    | deleteCronJob id job => exact absurd trivial hfinds
    | createScript body path => exact absurd trivial hfinds
    | updateScript id script edited changes => exact absurd trivial hfinds

end

/-- Whatever the order of their steps, requests leave no live job with a link to a deleted script
exactly when every commit finds what its request has checked of the links. -/
theorem links_stay_live_iff {db : Database} (hdb : Linked db) (actions : List (Action Operation)) :
    Always handler.step (fun w ↦ Linked w.store) (begin db) actions ↔
      Guarded handler.step (handler.Committing FindsLinks) (begin db) actions := by
  refine Handler.always_iff_committing (fun _ h ↦ h)
    (Q := fun _ _ stage ↦ Known (fun _ ↦ True) stage.progress)
    (handler_knows fun _ _ _ _ _ ↦ trivial) ?_ ?_ hdb actions
  · intro db op stage db' hdb hknown _ hfinds h
    exact commit_linked hdb hknown hfinds h
  · intro db op stage hdb hknown _ hfinds
    exact commit_dangles hdb hknown hfinds

section Sample

/-- A script is deleted once the job that links it is, and a job that is created at the same time
is linked to it. -/
def crossing : List (Action Operation) :=
  [.send (.deleteCronJob ⟨1, 5, none⟩ 1), .read 1, .commit 1,
    .send (.createCronJob ⟨1, 6, none⟩
      { name := "weekly".toList, command := "backup".toList
        scheduleExpression := "0 9 * * *".toList, scriptId := some 1 }),
    .read 1, .send (.deleteScript ⟨1, 7, none⟩ 1), .read 2, .read 2, .commit 2, .commit 1]

theorem links_stay_live_iff_crossing :
    ((exec handler.step (begin sample) crossing).bind fun w ↦
        (w.store.liveJob 2).map fun job ↦ (job.scriptId, (w.store.liveScript 1).isSome)) =
      some (some 1, false) ∧
    (Always handler.step (fun w ↦ Linked w.store) (begin sample) crossing ↔
      Guarded handler.step (handler.Committing FindsLinks) (begin sample) crossing) :=
  ⟨by decide +kernel, links_stay_live_iff sample_linked crossing⟩

end Sample

end CronPanel.Access.Dangling
