import CronPanel.Api.Frames
import CronPanel.Library.Run
import CronPanel.Scheduler.Eligibility

namespace CronPanel.Access.References

open Library.Tables Library.Fallible Library.Run Data.Records Data.Repositories Data.Repositories.Database
open Schemas.Bodies Services.CronJobs Services.Scripts Api.Errors Api.Operations Api.Frames Scheduler.Eligibility

/-- Each job that is not deleted refers to a script that is not deleted, if to any. -/
def Linked (db : Database) : Prop :=
  ∀ id job k, db.liveJob id = some job → job.scriptId = some k →
    ∃ script, db.liveScript k = some script

section

variable {db db' : Database} {call : Call} {id : ℕ}

theorem isReferencedByActiveJob_iff :
    db.isReferencedByActiveJob id ↔
      ∃ j job, db.liveJob j = some job ∧ job.scriptId = some id := by
  simp only [isReferencedByActiveJob, List.any_eq_true, decide_eq_true_eq, liveJob_eq_some]
  constructor
  · intro h
    obtain ⟨⟨j, job⟩, hmem, hid, hkept⟩ := h
    exact ⟨j, job, ⟨Table.mem_rows.mp hmem, by simpa using hkept⟩, hid⟩
  · intro h
    obtain ⟨j, job, ⟨hjob, hkept⟩, hid⟩ := h
    exact ⟨(j, job), Table.mem_rows.mpr hjob, hid, by simpa using hkept⟩

theorem deleteScript_succeeds_iff {script : Script} (hlive : db.liveScript id = some script) :
    Succeeds (Services.Scripts.deleteScript call id db) ↔
      ∀ j job, db.liveJob j = some job → job.scriptId ≠ some id := by
  have hget : getScript db id = .ok script := by
    unfold getScript
    rw [hlive]
    rfl
  unfold Services.Scripts.deleteScript
  rw [hget, ok_bind]
  by_cases hused : db.isReferencedByActiveJob id
  · rw [if_pos hused]
    obtain ⟨j, job, hjob, hid⟩ := isReferencedByActiveJob_iff.mp hused
    exact iff_of_false (not_succeeds_error _) fun h ↦ h j job hjob hid
  · rw [if_neg hused]
    refine iff_of_true ⟨_, rfl⟩ ?_
    intro j job hjob hid
    exact hused (isReferencedByActiveJob_iff.mpr ⟨j, job, hjob, hid⟩)

theorem Linked.set_job (h : Linked db) {stored : CronJob} (hscripts : db'.scripts = db.scripts)
    (hjobs : db'.cronJobs = db.cronJobs.set id stored)
    (hstored : stored.isDeleted = false → ∀ k, stored.scriptId = some k →
      ∃ script, db.liveScript k = some script) : Linked db' := by
  intro j job k hjob hk
  obtain ⟨hget, hkept⟩ := liveJob_eq_some.mp hjob
  unfold liveScript
  rw [hscripts]
  rw [hjobs, Table.get?_set] at hget
  split_ifs at hget
  · obtain rfl := Option.some.inj hget
    exact hstored hkept k hk
  · exact h j job k (liveJob_eq_some.mpr ⟨hget, hkept⟩) hk

theorem Linked.set_script (h : Linked db) {stored : Script} (hjobs : db'.cronJobs = db.cronJobs)
    (hscripts : db'.scripts = db.scripts.set id stored)
    (hstored : stored.isDeleted = false ∨ db.isReferencedByActiveJob id = false) : Linked db' := by
  intro j job k hjob hk
  unfold liveJob at hjob
  rw [hjobs] at hjob
  obtain ⟨script, hscript⟩ := h j job k hjob hk
  unfold liveScript
  rw [hscripts, Table.get?_set]
  split_ifs with hid
  · subst hid
    rcases hstored with hkept | hunused
    · exact ⟨stored, Option.filter_eq_some_iff.mpr ⟨rfl, by rw [hkept]; rfl⟩⟩
    · have hused : db.isReferencedByActiveJob k :=
        isReferencedByActiveJob_iff.mpr ⟨j, job, hjob, hk⟩
      rw [hunused] at hused
      cases hused
  · exact ⟨script, hscript⟩

theorem validateScriptReference_live {new : Option ℕ} (h : validateScriptReference db new = .ok ())
    (k : ℕ) (hk : new = some k) : ∃ script, db.liveScript k = some script := by
  subst hk
  exact validateScriptReference_ok h

theorem createScript_live {host : Execution.Policy.Host} {body : ScriptCreate}
    (h : Services.Scripts.createScript call host body db = .ok (id, db')) :
    db'.cronJobs = db.cronJobs ∧ ∃ stored, db'.scripts = db.scripts.set db.scripts.nextId stored ∧
      stored.isDeleted = false := by
  obtain ⟨validated, -, h⟩ := bind_eq_ok.mp h
  dsimp only at h
  split_ifs at h
  cases h
  exact ⟨rfl, _, rfl, rfl⟩

theorem updateScript_live {host : Execution.Policy.Host} {body : ScriptUpdate}
    (h : Services.Scripts.updateScript call host id body db = .ok db') :
    db'.cronJobs = db.cronJobs ∧ ∃ stored, db'.scripts = db.scripts.set id stored ∧
      stored.isDeleted = false := by
  obtain ⟨script, hscript, h⟩ := bind_eq_ok.mp h
  obtain ⟨hget, hkept⟩ := liveScript_eq_some.mp (getScript_ok hscript)
  obtain ⟨⟨edited, changes⟩, hedit, h⟩ := bind_eq_ok.mp h
  have hedited : edited.isDeleted = false := by
    obtain ⟨⟨name, onName⟩, -, hedit⟩ := bind_eq_ok.mp hedit
    obtain ⟨⟨path, onPath⟩, -, hedit⟩ := bind_eq_ok.mp hedit
    cases hedit
    exact hkept
  dsimp only at h
  split_ifs at h with hnil htaken hsame
  · cases h
    exact ⟨rfl, script, (Table.set_get? hget).symm, hkept⟩
  · cases h
    refine ⟨recordScriptUpdate_cronJobs _ _ _, script, ?_, hkept⟩
    rw [recordScriptUpdate_scripts]
  · cases h
    refine ⟨recordScriptUpdate_cronJobs _ _ _, { edited with updatedAt := call.now }, ?_, hedited⟩
    rw [recordScriptUpdate_scripts]

theorem commit_linked (hdb : Linked db) {op : Operation} {n : Notification}
    (h : op.commit db = .ok (db', n)) : Linked db' := by
  obtain ⟨call, hperformed⟩ := commit_ok h
  cases op with
  | createCronJob sender body =>
    obtain ⟨⟨id, db₁⟩, hc, h⟩ := bind_eq_ok.mp h
    cases h
    obtain ⟨s, -, href, -, hscripts, job, hjobs, -, hk⟩ := createCronJob_commit hc
    exact hdb.set_job hscripts hjobs fun _ ↦ hk ▸ validateScriptReference_live href
  | updateCronJob sender id body =>
    obtain ⟨db₁, hc, h⟩ := bind_eq_ok.mp h
    cases h
    obtain ⟨href, hscripts, job, stored, hlive, hjobs, -, -, hk, -⟩ := updateCronJob_commit hc
    refine hdb.set_job hscripts hjobs ?_
    intro _ k hstored
    rw [hk] at hstored
    cases hbody : body.scriptId with
    | none =>
      rw [hbody] at hstored
      exact hdb id job k hlive hstored
    | some new =>
      rw [hbody] at hstored href
      exact validateScriptReference_live href k hstored
  | updateCronJobStatus sender id isActive =>
    obtain ⟨hscripts, job, stored, hlive, hjobs, -, -, hk, -⟩ := updateCronJobStatus_ok hperformed.2
    exact hdb.set_job hscripts hjobs fun _ k hstored ↦ hdb id job k hlive (hk ▸ hstored)
  | deleteCronJob sender id =>
    obtain ⟨hscripts, job, stored, -, hjobs, hdeleted, -⟩ := deleteCronJob_ok hperformed.2
    refine hdb.set_job hscripts hjobs ?_
    intro hkept
    rw [hdeleted] at hkept
    cases hkept
  | createScript sender host body =>
    obtain ⟨-, checked, id, hc⟩ := hperformed
    obtain ⟨hjobs, script, hscripts, hkept⟩ := createScript_live hc
    exact hdb.set_script hjobs hscripts (.inl hkept)
  | updateScript sender host id body =>
    obtain ⟨-, checked, hc⟩ := hperformed
    obtain ⟨hjobs, stored, hscripts, hkept⟩ := updateScript_live hc
    exact hdb.set_script hjobs hscripts (.inl hkept)
  | deleteScript sender id =>
    obtain ⟨hjobs, hunused, script, stored, -, hscripts⟩ := deleteScript_ok hperformed.2
    exact hdb.set_script hjobs hscripts (.inr hunused)

end

theorem serve_linked {db : Database} (h : Linked db) (op : Operation) : Linked (op.serve db) := by
  unfold Operation.serve
  cases hc : op.commit db with
  | error e => exact h
  | ok result => exact commit_linked h hc

/-- Along every run no live job refers to a deleted script, and a live script can be deleted
exactly when no live job refers to it. -/
theorem live_references {db : Database} (h : Linked db) (ops : List Operation) :
    Always step (fun db ↦
      (∀ id job k, db.liveJob id = some job → job.scriptId = some k →
        ∃ script, db.liveScript k = some script) ∧
      ∀ call id script, db.liveScript id = some script →
        (Succeeds (Services.Scripts.deleteScript call id db) ↔
          ∀ j job, db.liveJob j = some job → job.scriptId ≠ some id)) db ops := by
  have hall : Always step Linked db ops := by
    refine always ?_ h
    intro s op t hs hstep
    obtain rfl := Option.some.inj hstep
    exact serve_linked hs op
  refine always_mono ?_ hall
  intro s hs
  exact ⟨hs, fun call id script hlive ↦ deleteScript_succeeds_iff hlive⟩

section Sample

theorem sample_linked : Linked sample := by
  intro id job k hjob hk
  have hget := (liveJob_eq_some.mp hjob).1
  change (Table.set Table.empty 1 sampleJob).get? id = some job at hget
  rw [Table.get?_set, Table.get?_empty] at hget
  split_ifs at hget
  obtain rfl := Option.some.inj hget
  cases hk
  exact ⟨sampleScript, rfl⟩

/-- The script of a job is not deleted before the job is. -/
def sampleOperations : List Operation :=
  [.deleteScript ⟨1, 5, none⟩ 1, .deleteCronJob ⟨1, 6, none⟩ 1, .deleteScript ⟨1, 7, none⟩ 1]

theorem live_references_sample :
    (exec step sample (sampleOperations.take 2)).map
      (fun db ↦ (db.liveScript 1).isSome) = some true ∧
    (exec step sample sampleOperations).map (fun db ↦ (db.liveScript 1).isSome) = some false ∧
    Always step (fun db ↦
      (∀ id job k, db.liveJob id = some job → job.scriptId = some k →
        ∃ script, db.liveScript k = some script) ∧
      ∀ call id script, db.liveScript id = some script →
        (Succeeds (Services.Scripts.deleteScript call id db) ↔
          ∀ j job, db.liveJob j = some job → job.scriptId ≠ some id)) sample sampleOperations :=
  ⟨by decide, by decide, live_references sample_linked sampleOperations⟩

end Sample

end CronPanel.Access.References
