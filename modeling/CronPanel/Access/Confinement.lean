import CronPanel.Access.Attribution
import CronPanel.Services.Columns

namespace CronPanel.Access.Confinement

open Library.Strings Library.Tables Library.Fallible Library.Run
open Core.Permissions Core.Security Data.Records Data.Repositories Schemas.Bodies Schemas.Accounts
open Services.CronJobs Services.Auth Services.Executions Scheduler.Jobs
open Api.Errors Api.Accounts Api.Operations Api.Executions Api.Frames Api.Requests
open Sessions.Changes Panel Writes Attribution

/-- The account that a request is made with. -/
def sender : Request → Option ℕ
  | .account (.login ..) => none
  | .account (.logout bearer) => some bearer.token.sub
  | .account (.changePassword bearer _ _) => some bearer.token.sub
  | .account (.createUser bearer _ _) => some bearer.token.sub
  | .account (.updateUser bearer _ _ _) => some bearer.token.sub
  | .account (.deleteUser bearer _) => some bearer.token.sub
  | .edit (.createCronJob sender _) => some sender.userId
  | .edit (.updateCronJob sender _ _) => some sender.userId
  | .edit (.updateCronJobStatus sender _ _) => some sender.userId
  | .edit (.deleteCronJob sender _) => some sender.userId
  | .edit (.createScript sender _ _) => some sender.userId
  | .edit (.updateScript sender _ _ _) => some sender.userId
  | .edit (.deleteScript sender _) => some sender.userId
  | .execute _ sender _ => some sender.userId
  | .fire _ _ => none

/-- A login, a call of the scheduler, or a request made with an account of the group. -/
def MadeBy (group : ℕ → Prop) (r : Request) : Prop := ∀ id, sender r = some id → group id

/-- No account of the group is an administrator's. -/
def Unprivileged (group : ℕ → Prop) (db : Database) : Prop :=
  ∀ id user, group id → db.users.get? id = some user → user.role ≠ .admin

/-- What administrators give an account. -/
def standing (user : User) : Text × Text × Bool × Role × Instant :=
  (user.username, user.email, user.isActive, user.role, user.createdAt)

/-- What lets its holder in, and what ends the sessions of an account. -/
def credentials (user : User) : Text × Option Instant :=
  (user.hashedPassword, user.tokensInvalidBefore)

/-- The job is there, and it is one of the group's. -/
def Held (group : ℕ → Prop) (db : Database) (jobId : ℕ) : Prop :=
  ∃ job, db.cronJobs.get? jobId = some job ∧ group job.ownerId

/-- A job keeps its owner and is not deleted, and is not touched at all unless it is the group's. -/
structure JobStays (group : ℕ → Prop) (job job' : CronJob) : Prop where
  ownerId : job'.ownerId = job.ownerId
  isDeleted : job'.isDeleted = job.isDeleted
  foreign : ¬group job.ownerId → job' = job

/-- What has happened to the database is the group's own affair. -/
structure Confined (group : ℕ → Prop) (db db' : Database) : Prop where
  accounts : ∀ id, (db'.users.get? id).map standing = (db.users.get? id).map standing
  credentials : ∀ id, ¬group id →
    (db'.users.get? id).map credentials = (db.users.get? id).map credentials
  revokedTokens : ∀ k token, db'.revokedTokens.get? k = some token →
    db.revokedTokens.get? k ≠ some token → ∃ id, token.userId = some id ∧ group id
  scripts : db'.scripts = db.scripts
  cronJobs : db.cronJobs.Keeps (JobStays group) db'.cronJobs
  created : ∀ id job, db'.cronJobs.get? id = some job → db.cronJobs.get? id = none →
    group job.ownerId
  cronJobHistory : ∀ k entry, db'.cronJobHistory.get? k = some entry →
    db.cronJobHistory.get? k ≠ some entry → Held group db' entry.cronJobId
  executions : ∀ k e, db'.executions.get? k = some e → e.trigger = .manual →
    db.executions.get? k = some e ∨ ∃ id, e.cronJobId = some id ∧ Held group db' id

section

variable {group : ℕ → Prop} {db db₁ db' : Database} {call : Call} {id : ℕ}
    {bcrypt : Bcrypt} {settings : Settings}

theorem JobStays.refl (job : CronJob) : JobStays group job job := ⟨rfl, rfl, fun _ ↦ rfl⟩

theorem JobStays.trans (job job₁ job₂ : CronJob) (h : JobStays group job job₁)
    (h' : JobStays group job₁ job₂) : JobStays group job job₂ where
  ownerId := h'.ownerId.trans h.ownerId
  isDeleted := h'.isDeleted.trans h.isDeleted
  foreign hforeign := by
    obtain rfl := h.foreign hforeign
    exact h'.foreign hforeign

theorem Held.stays (h : Held group db id)
    (hjobs : db.cronJobs.Keeps (JobStays group) db'.cronJobs) : Held group db' id := by
  obtain ⟨job, hget, howner⟩ := h
  obtain ⟨job', hget', hstays⟩ := hjobs id job hget
  exact ⟨job', hget', hstays.ownerId ▸ howner⟩

theorem Confined.refl (db : Database) : Confined group db db where
  accounts _ := rfl
  credentials _ _ := rfl
  revokedTokens _ _ hget hne := absurd hget hne
  scripts := rfl
  cronJobs := .refl JobStays.refl _
  created _ _ hget hnone := absurd (hget.symm.trans hnone) (Option.some_ne_none _)
  cronJobHistory _ _ hget hne := absurd hget hne
  executions _ _ hget _ := .inl hget

theorem Confined.trans (h : Confined group db db₁) (h' : Confined group db₁ db') :
    Confined group db db' where
  accounts id := (h'.accounts id).trans (h.accounts id)
  credentials id hid := (h'.credentials id hid).trans (h.credentials id hid)
  revokedTokens k token hget hne := by
    by_cases hmid : db₁.revokedTokens.get? k = some token
    · exact h.revokedTokens k token hmid hne
    · exact h'.revokedTokens k token hget hmid
  scripts := h'.scripts.trans h.scripts
  cronJobs := .trans JobStays.trans h.cronJobs h'.cronJobs
  created id job hget hnone := by
    cases hmid : db₁.cronJobs.get? id with
    | none => exact h'.created id job hget hmid
    | some job₁ =>
      obtain ⟨job', hget', hstays⟩ := h'.cronJobs id job₁ hmid
      obtain rfl := Option.some.inj (hget.symm.trans hget')
      exact hstays.ownerId ▸ h.created id job₁ hmid hnone
  cronJobHistory k entry hget hne := by
    by_cases hmid : db₁.cronJobHistory.get? k = some entry
    · exact (h.cronJobHistory k entry hmid hne).stays h'.cronJobs
    · exact h'.cronJobHistory k entry hget hmid
  executions k e hget hmanual := by
    rcases h'.executions k e hget hmanual with hmid | hheld
    · refine (h.executions k e hmid hmanual).imp_right ?_
      rintro ⟨id, hid, hheld⟩
      exact ⟨id, hid, hheld.stays h'.cronJobs⟩
    · exact .inr hheld

theorem Unprivileged.stays (h : Unprivileged group db)
    (haccounts : ∀ id, (db'.users.get? id).map standing = (db.users.get? id).map standing) :
    Unprivileged group db' := by
  intro id user hid hget
  have hsame := haccounts id
  rw [hget] at hsame
  obtain ⟨old, hold, hstanding⟩ := Option.map_eq_some_iff.mp hsame.symm
  have hrole : old.role = user.role := congrArg (fun s ↦ s.2.2.2.1) hstanding
  rw [← hrole]
  exact h id old hid hold

/-- What only the role of administrators permits. -/
def adminOnly : List Permission :=
  [.usersCreate, .usersUpdate, .usersDelete, .cronJobsDelete, .scriptsCreate, .scriptsUpdate,
    .scriptsDelete]

theorem adminOnly_admin {permission : Permission} (h : permission ∈ adminOnly) {role : Role}
    (hrole : role ≠ .admin) : hasPermission role permission = false := by
  revert permission
  cases role with
  | admin => exact absurd rfl hrole
  | operator => decide
  | viewer => decide

theorem isFullAccessRole_admin {role : Role} (hrole : role ≠ .admin) :
    isFullAccessRole role = false := by
  cases role with
  | admin => exact absurd rfl hrole
  | operator => decide
  | viewer => decide

/-- A call that the route of an edit makes for an account of the group. -/
theorem Unprivileged.permitted (h : Unprivileged group db) {sender : Sender}
    (hsender : group sender.userId) {permission : Permission}
    (hcall : requirePermission db sender permission = .ok call) :
    group call.actor.id ∧ call.actor.user.role ≠ .admin ∧ permission ∉ adminOnly := by
  obtain ⟨user, hget, -, hpermission, rfl⟩ := requirePermission_ok hcall
  have hrole := h sender.userId user hsender hget
  refine ⟨hsender, hrole, fun honly ↦ ?_⟩
  rw [adminOnly_admin honly hrole] at hpermission
  cases hpermission

theorem owner_of_manages {job : CronJob} (hgroup : group call.actor.id)
    (hrole : call.actor.user.role ≠ .admin) (h : canManage job call.actor) : group job.ownerId := by
  rcases canManage_iff.mp h with howner | hfull
  · exact howner ▸ hgroup
  · rw [isFullAccessRole_admin hrole] at hfull
    cases hfull

section Edits

variable {n : Notification} {job job' : CronJob}

theorem confined_insert (howner : group job.ownerId) (action : HistoryAction)
    (event : AuditAction) (details : List (Text × Library.JsonData.Json)) :
    Confined group db (recordJobEvent call event db.cronJobs.nextId details
      (recordHistory call db.cronJobs.nextId action []
        { db with cronJobs := (db.cronJobs.insert job).2 })) := by
  have hnew : (db.cronJobs.insert job).2.get? db.cronJobs.nextId = some job :=
    Table.get?_set_self ..
  refine { Confined.refl db with
    cronJobs := ?_, created := ?_, cronJobHistory := ?_, executions := fun _ _ hget _ ↦ .inl hget }
  · exact Table.keeps_insert JobStays.refl _ _
  · intro id other hget hnone
    rw [insert_new hget (by rw [hnone]; exact (Option.some_ne_none _).symm)]
    exact howner
  · intro k entry hget hne
    rw [insert_new hget hne]
    exact ⟨job, hnew, howner⟩

theorem confined_set (hlive : db.liveJob id = some job) (howner : group job.ownerId)
    (hkept : job'.ownerId = job.ownerId) (hdeleted : job'.isDeleted = job.isDeleted)
    (action : HistoryAction) (changes : List Change) (event : AuditAction)
    (details : List (Text × Library.JsonData.Json)) :
    Confined group db (recordJobEvent call event id details
      (recordHistory call id action changes
        { db with cronJobs := db.cronJobs.set id job' })) := by
  have hget := (Database.liveJob_eq_some.mp hlive).1
  refine { Confined.refl db with
    cronJobs := ?_, created := ?_, cronJobHistory := ?_, executions := fun _ _ hget _ ↦ .inl hget }
  · refine Table.keeps_set JobStays.refl fun old hold ↦ ?_
    obtain rfl := Option.some.inj (hget.symm.trans hold)
    exact ⟨hkept, hdeleted, fun hforeign ↦ absurd howner hforeign⟩
  · intro j other hother hnone
    change (db.cronJobs.set id job').get? j = some other at hother
    rw [Table.get?_set] at hother
    split_ifs at hother with hj
    · rw [hj, hget] at hnone
      cases hnone
    · rw [hnone] at hother
      cases hother
  · intro k entry hentry hne
    rw [insert_new hentry hne]
    exact ⟨job', Table.get?_set_self .., hkept ▸ howner⟩

theorem commit_confined {op : Operation} (h : Unprivileged group db)
    (hsender : MadeBy group (.edit op)) (hcommit : op.commit db = .ok (db', n)) :
    Confined group db db' := by
  obtain ⟨call, hperformed⟩ := commit_ok hcommit
  cases op with
  | createCronJob sender body =>
    obtain ⟨hcall, checked, id, hc⟩ := hperformed
    obtain ⟨hgroup, -, -⟩ := h.permitted (hsender _ rfl) hcall
    obtain ⟨⟨⟩, -, hc⟩ := bind_eq_ok.mp hc
    obtain ⟨job, hjob, hc⟩ := bind_eq_ok.mp hc
    cases hc
    exact confined_insert ((applySchedule_kept hjob).1 ▸ hgroup) ..
  | updateCronJob sender id body =>
    obtain ⟨hcall, checked, hc⟩ := hperformed
    obtain ⟨hgroup, hrole, -⟩ := h.permitted (hsender _ rfl) hcall
    obtain ⟨job, hjob, hc⟩ := bind_eq_ok.mp hc
    obtain ⟨hlive, hmanage⟩ := getJobForWrite_ok hjob
    obtain ⟨⟨⟩, -, hc⟩ := bind_eq_ok.mp hc
    obtain ⟨⟨edited, changes⟩, hedit, hc⟩ := bind_eq_ok.mp hc
    obtain ⟨howner, hdeleted, -⟩ := editCronJob_kept hedit
    dsimp only at hc
    split_ifs at hc
    · cases hc
      exact .refl db
    · cases hc
      obtain ⟨t, ht⟩ := Services.Columns.touch_eq call.now job edited
      refine confined_set hlive (owner_of_manages hgroup hrole hmanage) ?_ ?_ ..
      · rw [ht]
        exact howner
      · rw [ht]
        exact hdeleted
  | updateCronJobStatus sender id isActive =>
    obtain ⟨hcall, hc⟩ := hperformed
    obtain ⟨hgroup, hrole, -⟩ := h.permitted (hsender _ rfl) hcall
    obtain ⟨job, hjob, hc⟩ := bind_eq_ok.mp hc
    obtain ⟨hlive, hmanage⟩ := getJobForWrite_ok hjob
    have howner := owner_of_manages hgroup hrole hmanage
    split_ifs at hc
    · cases hc
      exact .refl db
    all_goals
      cases hc
      refine confined_set hlive howner ?_ ?_ ..
      · rfl
      · rfl
  | deleteCronJob sender id =>
    obtain ⟨-, -, honly⟩ := h.permitted (hsender _ rfl) hperformed.1
    exact absurd (by decide) honly
  | createScript sender host body =>
    obtain ⟨-, -, honly⟩ := h.permitted (hsender _ rfl) hperformed.1
    exact absurd (by decide) honly
  | updateScript sender host id body =>
    obtain ⟨-, -, honly⟩ := h.permitted (hsender _ rfl) hperformed.1
    exact absurd (by decide) honly
  | deleteScript sender id =>
    obtain ⟨-, -, honly⟩ := h.permitted (hsender _ rfl) hperformed.1
    exact absurd (by decide) honly

end Edits

section Runs

/-- A run adds at most its own execution. -/
theorem run_kept (env : Environment) (call : RunCall) (db : Database) {k : ℕ} {e : Execution}
    (hget : db.executions.get? k = some e) :
    (Services.Executions.run env call db).1.executions.get? k = some e := by
  -- Both of its commits write under the identifier that was free when it started.
  have hne : k ≠ db.executions.nextId := (Table.lt_nextId hget).ne
  unfold Services.Executions.run
  cases hs : startRun env call db with
  | error error => exact hget
  | ok started =>
    obtain ⟨running, db₁⟩ := started
    obtain ⟨resolved, -, -, rfl, rfl⟩ := startRun_eq_ok hs
    dsimp only
    cases hf : finishRun env _ _ with
    | error error => exact (Table.get?_set_ne _ _ hne).trans hget
    | ok db₂ =>
      obtain ⟨result, row, job, script, -, -, -, -, rfl⟩ := finishRun_eq_ok hf
      exact (Table.get?_set_ne _ _ hne).trans ((Table.get?_set_ne _ _ hne).trans hget)

theorem runScheduledJob_kept (env : Environment) (jobId : ℕ) (db : Database) {k : ℕ} {e : Execution}
    (hget : db.executions.get? k = some e) :
    (runScheduledJob env jobId db).executions.get? k = some e := by
  unfold runScheduledJob
  cases hjob : db.liveJob jobId with
  | none => exact hget
  | some job =>
    dsimp only
    split_ifs
    · exact hget
    · exact hget
    · unfold runScheduledCronJob
      rw [hjob]
      dsimp only
      have hkept := run_kept env (scheduledCall jobId job) db hget
      cases hrun : Services.Executions.run env (scheduledCall jobId job) db with | mk db' outcome =>
      rw [hrun] at hkept
      cases outcome with
      | ok id => exact hkept
      | error e =>
        dsimp only
        unfold recordFailure
        cases skipReason e with
        | none => exact hkept
        | some reason => exact hkept

theorem confined_run (hframe : RunFrame db db')
    (hexecutions : ∀ k e, db'.executions.get? k = some e → e.trigger = .manual →
      db.executions.get? k = some e ∨ ∃ id, e.cronJobId = some id ∧ Held group db id) :
    Confined group db db' := by
  have hjobs : db.cronJobs.Keeps (JobStays group) db'.cronJobs := by
    rw [hframe.cronJobs]
    exact .refl JobStays.refl _
  refine ⟨?_, ?_, ?_, hframe.scripts, hjobs, ?_, ?_, ?_⟩
  · intro id
    rw [hframe.users]
  · intro id _
    rw [hframe.users]
  · intro k token hget hne
    exact absurd (hframe.revokedTokens ▸ hget) hne
  · intro id job hget hnone
    rw [hframe.cronJobs, hnone] at hget
    cases hget
  · intro k entry hget hne
    exact absurd (hframe.cronJobHistory ▸ hget) hne
  · intro k e hget hmanual
    refine (hexecutions k e hget hmanual).imp_right ?_
    rintro ⟨id, hid, hheld⟩
    exact ⟨id, hid, hheld.stays hjobs⟩

theorem execute_confined (h : Unprivileged group db) (env : Environment) (sender : Sender)
    (jobId : ℕ) (hsender : group sender.userId) :
    Confined group db (executeCronJob env sender jobId db).1 := by
  refine confined_run (execute_frame env sender jobId db) ?_
  unfold executeCronJob
  cases hcall : requirePermission db sender .executionsExecute with
  | error e => exact fun k e hget _ ↦ .inl hget
  | ok call =>
    obtain ⟨hgroup, hrole, -⟩ := h.permitted hsender hcall
    dsimp only
    unfold runCronJob
    cases hmanual : manualCall db call jobId with
    | error e => exact fun k e hget _ ↦ .inl hget
    | ok runCall =>
      obtain ⟨job, hjob, howner, rfl, -⟩ := manualCall_ok hmanual
      have hheld : Held group db runCall.jobId :=
        ⟨job, hjob, owner_of_manages hgroup hrole (canManage_iff.mpr howner)⟩
      intro k e hget _
      cases hold : db.executions.get? k with
      | none => exact .inr ⟨_, ((run_write env runCall db).executions k e hget hold).1, hheld⟩
      | some old => exact .inl ((run_kept env runCall db hold).symm.trans hget)

theorem fire_confined (env : Environment) (jobId : ℕ) :
    Confined group db (runScheduledJob env jobId db) := by
  refine confined_run (runScheduledJob_frame env jobId db) ?_
  intro k e hget hmanual
  cases hold : db.executions.get? k with
  | none =>
    have hscheduled := ((runScheduledJob_write env jobId db).executions k e hget hold).2
    rw [hmanual] at hscheduled
    cases hscheduled
  | some old => exact .inl ((runScheduledJob_kept env jobId db hold).symm.trans hget)

end Runs

section Accounts

/-- A request that changes no account but those it may, and no job, script or execution. -/
theorem confined_account (hsame : SameJobs db db') (hscripts : db'.scripts = db.scripts)
    (haccounts : ∀ id, (db'.users.get? id).map standing = (db.users.get? id).map standing)
    (hcredentials : ∀ id, ¬group id →
      (db'.users.get? id).map credentials = (db.users.get? id).map credentials)
    (hrevoked : ∀ k token, db'.revokedTokens.get? k = some token →
      db.revokedTokens.get? k ≠ some token → ∃ id, token.userId = some id ∧ group id) :
    Confined group db db' := by
  obtain ⟨hjobs, hhistory, hexecutions⟩ := hsame
  refine ⟨haccounts, hcredentials, hrevoked, hscripts, ?_, ?_, ?_, ?_⟩
  · rw [hjobs]
    exact .refl JobStays.refl _
  · intro id job hget hnone
    rw [hjobs, hnone] at hget
    cases hget
  · intro k entry hget hne
    exact absurd (hhistory ▸ hget) hne
  · intro k e hget _
    exact .inl (hexecutions ▸ hget)

theorem map_set {α : Type} {f : User → α} {old new : User} (hget : db.users.get? id = some old)
    (h : f new = f old) (j : ℕ) :
    ((db.users.set id new).get? j).map f = (db.users.get? j).map f := by
  rw [Table.get?_set]
  split_ifs with hj
  · rw [hj, hget, Option.map_some, Option.map_some, h]
  · rfl

theorem map_set_other {α : Type} {f : User → α} {new : User} {j : ℕ} (hj : j ≠ id) :
    ((db.users.set id new).get? j).map f = (db.users.get? j).map f := by
  rw [Table.get?_set_ne _ _ hj]

theorem confined_quiet (hsame : SameJobs db db') (hscripts : db'.scripts = db.scripts)
    (husers : db'.users = db.users) (htokens : db'.revokedTokens = db.revokedTokens) :
    Confined group db db' := by
  refine confined_account hsame hscripts ?_ ?_ ?_
  · intro id
    rw [husers]
  · intro id _
    rw [husers]
  · intro k token hget hne
    exact absurd (htokens ▸ hget) hne

theorem login_confined (now : Instant) (ipAddress : Option Text) (jti username password : Text) :
    Confined group db (login bcrypt settings now ipAddress jti username password db).1 := by
  unfold login authenticateUser
  cases hfound : db.userByUsername username with
  | none => exact confined_quiet ⟨rfl, rfl, rfl⟩ rfl rfl rfl
  | some found =>
    obtain ⟨id, user⟩ := found
    have hget := userByUsername_get? hfound
    dsimp only
    split_ifs
    · exact confined_quiet ⟨rfl, rfl, rfl⟩ rfl rfl rfl
    · exact confined_quiet ⟨rfl, rfl, rfl⟩ rfl rfl rfl
    · refine confined_account ⟨rfl, rfl, rfl⟩ rfl ?_ ?_ fun _ _ hget hne ↦ absurd hget hne
      · intro j
        refine map_set hget ?_ j
        rfl
      · intro j _
        refine map_set hget ?_ j
        rfl

theorem logout_confined {bearer : Bearer} (hsender : group bearer.token.sub)
    (h : logout bearer db = .ok db') : Confined group db db' := by
  obtain ⟨call, hcall, h⟩ := bind_eq_ok.mp h
  obtain ⟨-, hid, -⟩ := getCurrentUser_eq_ok.mp (authenticated_ok hcall).2
  have hgroup : group call.actor.id := hid ▸ hsender
  dsimp only at h
  split_ifs at h
  all_goals
    cases h
    refine confined_account ⟨rfl, rfl, rfl⟩ rfl (fun _ ↦ rfl) (fun _ _ ↦ rfl) ?_
    intro k token hget hne
    have hlisted := (Option.filter_eq_some_iff.mp ((Table.get?_filter _ _ _).symm.trans hget)).1
  · rw [insert_new hlisted hne]
    exact ⟨_, rfl, hgroup⟩
  · exact absurd hlisted hne

theorem changePassword_confined {salt current new : Text}
    (hget : db.users.get? call.actor.id = some call.actor.user) (hgroup : group call.actor.id) :
    Confined group db
      (Services.Auth.changePassword bcrypt settings call salt current new db).1 := by
  simp only [Services.Auth.changePassword]
  split_ifs
  · exact confined_quiet ⟨rfl, rfl, rfl⟩ rfl rfl rfl
  · split
    · exact .refl db
    · split
      · exact .refl db
      · refine confined_account ⟨rfl, rfl, rfl⟩ rfl ?_ ?_ fun _ _ hget hne ↦ absurd hget hne
        · intro j
          refine map_set hget ?_ j
          rfl
        · intro j hj
          refine map_set_other fun hself ↦ ?_
          exact hj (hself ▸ hgroup)

/-- No account of the group reaches the accounts of others. -/
theorem not_authorized (h : Unprivileged group db) {bearer : Bearer}
    (hsender : group bearer.token.sub) {permission : Permission} (honly : permission ∈ adminOnly)
    (hcall : authorized bearer permission db = .ok call) : False := by
  obtain ⟨call', hauth, hcall⟩ := bind_eq_ok.mp hcall
  split_ifs at hcall with hpermission
  obtain ⟨-, hid, hget, -⟩ := getCurrentUser_eq_ok.mp (authenticated_ok hauth).2
  rw [adminOnly_admin honly (h _ _ hsender hget)] at hpermission
  cases hpermission

theorem confined_answer {result : Except HttpError Database}
    (h : ∀ db', result = .ok db' → Confined group db db') :
    Confined group db (answer db result).1 := by
  cases result with
  | error e => exact .refl db
  | ok db' => exact h db' rfl

theorem account_confined {r : AccountRequest} (h : Unprivileged group db)
    (hsender : MadeBy group (.account r)) : Confined group db (r.serve bcrypt settings db).1 := by
  cases r with
  | login now ipAddress jti username password =>
    exact login_confined now ipAddress jti username password
  | logout bearer => exact confined_answer fun db' ↦ logout_confined (hsender _ rfl)
  | changePassword bearer salt body =>
    change Confined group db (Api.Accounts.changePassword bcrypt settings bearer salt body db).1
    unfold Api.Accounts.changePassword
    cases hcall : authenticated bearer db with
    | error e => exact .refl db
    | ok call =>
      cases checkBody body.validate with
      | error e => exact .refl db
      | ok checked =>
        obtain ⟨-, hid, -⟩ := getCurrentUser_eq_ok.mp (authenticated_ok hcall).2
        exact changePassword_confined (authenticated_user hcall).1 (hid ▸ hsender _ rfl)
  | createUser bearer salt body =>
    refine confined_answer fun db' hok ↦ ?_
    obtain ⟨⟨id, db₁⟩, hcreate, -⟩ := map_eq_ok.mp hok
    obtain ⟨call, hcall, -⟩ := bind_eq_ok.mp hcreate
    exact (not_authorized h (hsender _ rfl) (by decide) hcall).elim
  | updateUser bearer salt id body =>
    refine confined_answer fun db' hok ↦ ?_
    obtain ⟨call, hcall, -⟩ := bind_eq_ok.mp hok
    exact (not_authorized h (hsender _ rfl) (by decide) hcall).elim
  | deleteUser bearer id =>
    refine confined_answer fun db' hok ↦ ?_
    obtain ⟨call, hcall, -⟩ := bind_eq_ok.mp hok
    exact (not_authorized h (hsender _ rfl) (by decide) hcall).elim

end Accounts

theorem serve_confined {r : Request} (h : Unprivileged group db) (hr : MadeBy group r) :
    Confined group db (r.serve bcrypt settings db).1 := by
  cases r with
  | account r => exact account_confined h hr
  | edit op =>
    refine confined_answer fun db' hok ↦ ?_
    obtain ⟨⟨db₁, n⟩, hcommit, rfl⟩ := map_eq_ok.mp hok
    exact commit_confined h hr hcommit
  | execute env sender jobId => exact execute_confined h env sender jobId (hr _ rfl)
  | fire env jobId => exact fire_confined env jobId

end

/-- Accounts without an administrator among them reach nothing but what is theirs, whatever they ask
for and in whichever order: no account comes, goes, or gets another name or role, no password, job
or history of another is touched, no script is, and no job is deleted. -/
theorem group_confined (bcrypt : Bcrypt) (settings : Settings) {group : ℕ → Prop} {db : Database}
    (h : Unprivileged group db) {rs : List Request} (hrs : ∀ r ∈ rs, MadeBy group r) :
    Always (step bcrypt settings) (Confined group db) db rs := by
  have hguarded : Guarded (step bcrypt settings) (fun _ r ↦ MadeBy group r) db rs :=
    guarded_of_mem hrs db
  refine guarded_always ?_ (.refl db) hguarded
  intro db₁ r db₂ hdb₁ hr hstep
  -- None of them has become an administrator on the way: roles are part of the standing.
  obtain rfl := Option.some.inj hstep
  exact hdb₁.trans (serve_confined (h.stays hdb₁.accounts) hr)

section Sample

def operatorBearer : Bearer where
  token := createAccessToken ⟨60, 10⟩ 0 ['t'] 2 [] []
  now := 0
  ipAddress := none

/-- An operator creates a job, cannot delete it, and asks to become an administrator. -/
def takeover : List Request :=
  [.edit (.createCronJob ⟨2, 0, none⟩ {
      name := "nightly".toList
      command := "backup".toList
      scheduleExpression := "0 9 * * *".toList }),
    .edit (.deleteCronJob ⟨2, 0, none⟩ 1),
    .account (.updateUser operatorBearer [] 2 { role := some "admin".toList })]

theorem group_confined_takeover :
    (exec (step Owners.sampleBcrypt ⟨60, 10⟩) Owners.sample takeover).map (fun db ↦
        ((db.users.get? 2).map Data.Records.User.role,
          (db.cronJobs.get? 1).map CronJob.isDeleted)) =
      some (some .operator, some false) ∧
    Always (step Owners.sampleBcrypt ⟨60, 10⟩) (Confined (· = 2) Owners.sample) Owners.sample
      takeover := by
  have hsender : ∀ r ∈ takeover, sender r = some 2 := by decide
  refine ⟨by decide, group_confined _ _ ?_ ?_⟩
  · rintro id user rfl hget
    obtain rfl := Option.some.inj hget
    decide
  · intro r hr id hid
    exact Option.some.inj (hid.symm.trans (hsender r hr))

end Sample

end CronPanel.Access.Confinement
