import CronPanel.Api.Operations
import CronPanel.Services.Trail

namespace CronPanel.Api.Frames

open Library.Tables Library.Fallible Data.Records Data.Repositories Schemas.Bodies Execution.Policy
open Services.Audit Services.CronJobs Services.Scripts Services.Trail Errors Operations

/-- The executions stay as they are, and no job or script loses its row. -/
structure Extends (db db' : Database) : Prop where
  executions : db'.executions = db.executions
  jobs : ∀ id, (db.cronJobs.get? id).isSome → (db'.cronJobs.get? id).isSome
  scripts : ∀ id, (db.scripts.get? id).isSome → (db'.scripts.get? id).isSome

/-- The accounts and the revoked tokens stay as they are too. -/
structure Framed (db db' : Database) : Prop extends Extends db db' where
  users : db'.users = db.users
  revokedTokens : db'.revokedTokens = db.revokedTokens

theorem isSome_set {α : Type} {t : Table ℕ α} {k j : ℕ} {a : α} (h : (t.get? j).isSome) :
    ((t.set k a).get? j).isSome := by
  rw [Table.get?_set]
  split_ifs
  · rfl
  · exact h

section

variable {db db' : Database} {call : Call} {id : ℕ} {host : Host}

theorem Extends.refl (db : Database) : Extends db db := ⟨rfl, fun _ h ↦ h, fun _ h ↦ h⟩

theorem Framed.refl (db : Database) : Framed db db := ⟨.refl db, rfl, rfl⟩

theorem Framed.trans {db₁ db₂ db₃ : Database} (h : Framed db₁ db₂) (h' : Framed db₂ db₃) :
    Framed db₁ db₃ where
  executions := h'.executions.trans h.executions
  jobs id hid := h'.jobs id (h.jobs id hid)
  scripts id hid := h'.scripts id (h.scripts id hid)
  users := h'.users.trans h.users
  revokedTokens := h'.revokedTokens.trans h.revokedTokens

theorem Framed.set_job {job : CronJob} (he : db'.executions = db.executions)
    (hu : db'.users = db.users)
    (hr : db'.revokedTokens = db.revokedTokens) (hs : db'.scripts = db.scripts)
    (hj : db'.cronJobs = db.cronJobs.set id job) : Framed db db' :=
  ⟨⟨he, fun _ h ↦ hj ▸ isSome_set h, fun _ h ↦ hs ▸ h⟩, hu, hr⟩

theorem Framed.set_script {script : Script} (he : db'.executions = db.executions)
    (hu : db'.users = db.users)
    (hr : db'.revokedTokens = db.revokedTokens) (hj : db'.cronJobs = db.cronJobs)
    (hs : db'.scripts = db.scripts.set id script) : Framed db db' :=
  ⟨⟨he, fun _ h ↦ hj ▸ h, fun _ h ↦ hs ▸ isSome_set h⟩, hu, hr⟩

theorem createCronJob_framed {body : CronJobCreate}
    (h : Services.CronJobs.createCronJob call body db = .ok (id, db')) : Framed db db' := by
  obtain ⟨⟨⟩, -, h⟩ := bind_eq_ok.mp h
  obtain ⟨job, -, h⟩ := bind_eq_ok.mp h
  cases h
  exact .set_job rfl rfl rfl rfl rfl

theorem updateCronJob_framed {body : CronJobUpdate}
    (h : Services.CronJobs.updateCronJob call id body db = .ok db') : Framed db db' := by
  obtain ⟨job, -, h⟩ := bind_eq_ok.mp h
  obtain ⟨⟨⟩, -, h⟩ := bind_eq_ok.mp h
  obtain ⟨⟨edited, changes⟩, -, h⟩ := bind_eq_ok.mp h
  dsimp only at h
  split_ifs at h
  · cases h
    exact .refl db
  · cases h
    exact .set_job rfl rfl rfl rfl rfl

theorem updateCronJobStatus_framed {isActive : Bool}
    (h : Services.CronJobs.updateCronJobStatus call id isActive db = .ok db') : Framed db db' := by
  obtain ⟨job, -, h⟩ := bind_eq_ok.mp h
  split_ifs at h
  · cases h
    exact .refl db
  all_goals
    cases h
    exact .set_job rfl rfl rfl rfl rfl

theorem deleteCronJob_framed (h : Services.CronJobs.deleteCronJob call id db = .ok db') :
    Framed db db' := by
  obtain ⟨job, -, h⟩ := bind_eq_ok.mp h
  cases h
  exact .set_job rfl rfl rfl rfl rfl

theorem createScript_framed {body : ScriptCreate}
    (h : Services.Scripts.createScript call host body db = .ok (id, db')) : Framed db db' := by
  obtain ⟨validated, -, h⟩ := bind_eq_ok.mp h
  dsimp only at h
  split_ifs at h
  cases h
  exact .set_script rfl rfl rfl rfl rfl

theorem recordScriptUpdate_framed (old new : Script) (changes : List Change) :
    Framed db (recordScriptUpdate call id old new changes db) := by
  unfold recordScriptUpdate
  split_ifs <;> exact ⟨⟨rfl, fun _ h ↦ h, fun _ h ↦ h⟩, rfl, rfl⟩

theorem updateScript_framed {body : ScriptUpdate}
    (h : Services.Scripts.updateScript call host id body db = .ok db') : Framed db db' := by
  obtain ⟨script, -, h⟩ := bind_eq_ok.mp h
  obtain ⟨⟨edited, changes⟩, -, h⟩ := bind_eq_ok.mp h
  dsimp only at h
  split_ifs at h
  · cases h
    exact .refl db
  all_goals
    cases h
    refine Framed.trans ?_ (recordScriptUpdate_framed _ _ _)
    exact .set_script rfl rfl rfl rfl rfl

theorem deleteScript_framed (h : Services.Scripts.deleteScript call id db = .ok db') :
    Framed db db' := by
  obtain ⟨script, -, h⟩ := bind_eq_ok.mp h
  split_ifs at h
  cases h
  exact .set_script rfl rfl rfl rfl rfl

/-- The service call that a request for an edit comes down to. -/
def Performed (call : Call) (db db' : Database) : Operation → Prop
  | .createCronJob sender _ => requirePermission db sender .cronJobsCreate = .ok call ∧
      ∃ body id, Services.CronJobs.createCronJob call body db = .ok (id, db')
  | .updateCronJob sender id _ => requirePermission db sender .cronJobsUpdate = .ok call ∧
      ∃ body, Services.CronJobs.updateCronJob call id body db = .ok db'
  | .updateCronJobStatus sender id isActive =>
    requirePermission db sender .cronJobsEnable = .ok call ∧
      Services.CronJobs.updateCronJobStatus call id isActive db = .ok db'
  | .deleteCronJob sender id => requirePermission db sender .cronJobsDelete = .ok call ∧
      Services.CronJobs.deleteCronJob call id db = .ok db'
  | .createScript sender host _ => requirePermission db sender .scriptsCreate = .ok call ∧
      ∃ body id, Services.Scripts.createScript call host body db = .ok (id, db')
  | .updateScript sender host id _ => requirePermission db sender .scriptsUpdate = .ok call ∧
      ∃ body, Services.Scripts.updateScript call host id body db = .ok db'
  | .deleteScript sender id => requirePermission db sender .scriptsDelete = .ok call ∧
      Services.Scripts.deleteScript call id db = .ok db'

theorem commit_ok {op : Operation} {n : Notification} (h : op.commit db = .ok (db', n)) :
    ∃ call, Performed call db db' op := by
  cases op with
  | createCronJob sender body =>
    obtain ⟨⟨id, db₁⟩, hc, hr⟩ := bind_eq_ok.mp h
    obtain ⟨call, hcall, hc⟩ := bind_eq_ok.mp hc
    obtain ⟨checked, -, hc⟩ := bind_eq_ok.mp hc
    cases hr
    exact ⟨call, hcall, checked, id, mapError_eq_ok.mp hc⟩
  | updateCronJob sender id body =>
    obtain ⟨db₁, hc, hr⟩ := bind_eq_ok.mp h
    obtain ⟨call, hcall, hc⟩ := bind_eq_ok.mp hc
    obtain ⟨checked, -, hc⟩ := bind_eq_ok.mp hc
    cases hr
    exact ⟨call, hcall, checked, mapError_eq_ok.mp hc⟩
  | updateCronJobStatus sender id isActive =>
    obtain ⟨db₁, hc, hr⟩ := bind_eq_ok.mp h
    obtain ⟨call, hcall, hc⟩ := bind_eq_ok.mp hc
    cases hr
    exact ⟨call, hcall, mapError_eq_ok.mp hc⟩
  | deleteCronJob sender id =>
    obtain ⟨db₁, hc, hr⟩ := bind_eq_ok.mp h
    obtain ⟨call, hcall, hc⟩ := bind_eq_ok.mp hc
    cases hr
    exact ⟨call, hcall, mapError_eq_ok.mp hc⟩
  | createScript sender host body =>
    obtain ⟨⟨id, db₁⟩, hc, hr⟩ := bind_eq_ok.mp h
    obtain ⟨call, hcall, hc⟩ := bind_eq_ok.mp hc
    obtain ⟨checked, -, hc⟩ := bind_eq_ok.mp hc
    cases hr
    exact ⟨call, hcall, checked, id, mapError_eq_ok.mp hc⟩
  | updateScript sender host id body =>
    obtain ⟨db₁, hc, hr⟩ := bind_eq_ok.mp h
    obtain ⟨call, hcall, hc⟩ := bind_eq_ok.mp hc
    obtain ⟨checked, -, hc⟩ := bind_eq_ok.mp hc
    cases hr
    exact ⟨call, hcall, checked, mapError_eq_ok.mp hc⟩
  | deleteScript sender id =>
    obtain ⟨db₁, hc, hr⟩ := bind_eq_ok.mp h
    obtain ⟨call, hcall, hc⟩ := bind_eq_ok.mp hc
    cases hr
    exact ⟨call, hcall, mapError_eq_ok.mp hc⟩

/-- No request that edits a job or a script touches an execution or removes a row. -/
theorem commit_framed {op : Operation} {n : Notification} (h : op.commit db = .ok (db', n)) :
    Framed db db' := by
  obtain ⟨call, hperformed⟩ := commit_ok h
  cases op with
  | createCronJob sender body =>
    obtain ⟨-, checked, id, hc⟩ := hperformed
    exact createCronJob_framed hc
  | updateCronJob sender id body =>
    obtain ⟨-, checked, hc⟩ := hperformed
    exact updateCronJob_framed hc
  | updateCronJobStatus sender id isActive => exact updateCronJobStatus_framed hperformed.2
  | deleteCronJob sender id => exact deleteCronJob_framed hperformed.2
  | createScript sender host body =>
    obtain ⟨-, checked, id, hc⟩ := hperformed
    exact createScript_framed hc
  | updateScript sender host id body =>
    obtain ⟨-, checked, hc⟩ := hperformed
    exact updateScript_framed hc
  | deleteScript sender id => exact deleteScript_framed hperformed.2

theorem recordScriptUpdate_log (old new : Script) (changes : List Change) :
    executionLog (recordScriptUpdate call id old new changes db) = executionLog db := by
  have hupdated (details : List (Library.Strings.Text × Library.JsonData.Json)) :
      executionLog (recordScriptEvent call .scriptUpdated id details db) = executionLog db :=
        logged_other rfl _ _
  unfold recordScriptUpdate
  split_ifs with hsame hon
  · exact hupdated _
  · exact (logged_other rfl _ _).trans (hupdated _)
  · exact (logged_other rfl _ _).trans (hupdated _)

/-- No request that edits a job or a script writes an entry about an execution. -/
theorem commit_executionLog {op : Operation} {n : Notification} (h : op.commit db = .ok (db', n)) :
    executionLog db' = executionLog db := by
  obtain ⟨call, hperformed⟩ := commit_ok h
  cases op with
  | createCronJob sender body =>
    obtain ⟨-, checked, id, hc⟩ := hperformed
    obtain ⟨⟨⟩, -, hc⟩ := bind_eq_ok.mp hc
    obtain ⟨job, -, hc⟩ := bind_eq_ok.mp hc
    cases hc
    exact logged_other rfl _ _
  | updateCronJob sender id body =>
    obtain ⟨-, checked, hc⟩ := hperformed
    obtain ⟨job, -, hc⟩ := bind_eq_ok.mp hc
    obtain ⟨⟨⟩, -, hc⟩ := bind_eq_ok.mp hc
    obtain ⟨⟨edited, changes⟩, -, hc⟩ := bind_eq_ok.mp hc
    dsimp only at hc
    split_ifs at hc
    · cases hc
      rfl
    · cases hc
      exact logged_other rfl _ _
  | updateCronJobStatus sender id isActive =>
    obtain ⟨-, hc⟩ := hperformed
    obtain ⟨job, -, hc⟩ := bind_eq_ok.mp hc
    split_ifs at hc
    · cases hc
      rfl
    all_goals
      cases hc
      exact logged_other rfl _ _
  | deleteCronJob sender id =>
    obtain ⟨-, hc⟩ := hperformed
    obtain ⟨job, -, hc⟩ := bind_eq_ok.mp hc
    cases hc
    exact logged_other rfl _ _
  | createScript sender host body =>
    obtain ⟨-, checked, id, hc⟩ := hperformed
    obtain ⟨validated, -, hc⟩ := bind_eq_ok.mp hc
    dsimp only at hc
    split_ifs at hc
    cases hc
    exact logged_other rfl _ _
  | updateScript sender host id body =>
    obtain ⟨-, checked, hc⟩ := hperformed
    obtain ⟨script, -, hc⟩ := bind_eq_ok.mp hc
    obtain ⟨⟨edited, changes⟩, -, hc⟩ := bind_eq_ok.mp hc
    dsimp only at hc
    split_ifs at hc
    · cases hc
      rfl
    all_goals
      cases hc
      exact recordScriptUpdate_log _ _ _
  | deleteScript sender id =>
    obtain ⟨-, hc⟩ := hperformed
    obtain ⟨script, -, hc⟩ := bind_eq_ok.mp hc
    split_ifs at hc
    cases hc
    exact logged_other rfl _ _

end

end CronPanel.Api.Frames
