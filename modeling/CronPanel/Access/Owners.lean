import CronPanel.Access.Writes
import CronPanel.Sessions.Changes

namespace CronPanel.Access.Owners

open Library.Strings Library.Tables Library.Fallible Library.Run
open Core.Permissions Core.Security Data.Records Data.Repositories Schemas.Bodies Schemas.Accounts
open Services.CronJobs Services.Scripts Services.Users Services.Executions Scheduler.Jobs Sessions.Changes
open Api.Errors Api.Operations Api.Executions Api.Frames Api.Requests Api.Accounts Panel Writes

/-- The owner of each job, deleted or not, has an account. -/
def Owned (db : Database) : Prop :=
  ∀ id job, db.cronJobs.get? id = some job → ∃ owner, db.users.get? job.ownerId = some owner

/-- No job, deleted or not, belongs to an account. -/
def OwnsNothing (db : Database) (userId : ℕ) : Prop :=
  ∀ id job, db.cronJobs.get? id = some job → job.ownerId ≠ userId

/-- What a request about the accounts keeps of them: all but one that owns nothing. -/
def KeepsOwners (db db' : Database) : Prop :=
  ∀ k, (db.users.get? k).isSome → (db'.users.get? k).isSome ∨ OwnsNothing db k

section

variable {bcrypt : Bcrypt} {settings : Settings} {db db' : Database} {call : Call} {id : ℕ}

theorem ownsNothing_iff :
    OwnsNothing db id ↔ ¬(db.cronJobs.rows.any fun r ↦ r.2.ownerId = id) = true := by
  rw [List.any_eq_true]
  constructor
  · intro h hany
    obtain ⟨⟨j, job⟩, hmem, hid⟩ := hany
    exact h j job (Table.mem_rows.mp hmem) (of_decide_eq_true hid)
  · intro h j job hget hid
    exact h ⟨(j, job), Table.mem_rows.mpr hget, decide_eq_true hid⟩

theorem KeepsOwners.refl (db : Database) : KeepsOwners db db := fun _ h ↦ .inl h

theorem KeepsOwners.of_users (h : db'.users = db.users) : KeepsOwners db db' :=
  fun _ hk ↦ .inl (h ▸ hk)

theorem KeepsOwners.of_set {user : User} (h : db'.users = db.users.set id user) :
    KeepsOwners db db' := by
  intro k hk
  rw [h]
  exact .inl (isSome_set hk)

theorem deleteUser_keeps (h : Services.Users.deleteUser call id db = .ok db') :
    KeepsOwners db db' := by
  obtain ⟨user, -, -, howns, rfl⟩ := deleteUser_eq_ok h
  intro k hk
  by_cases hid : k = id
  · exact .inr (hid ▸ ownsNothing_iff.mpr howns)
  · left
    change ((db.users.erase id).get? k).isSome
    rw [Table.get?_erase, if_neg hid]
    exact hk

theorem answer_keeps {result : Except HttpError Database}
    (h : ∀ db', result = .ok db' → KeepsOwners db db') : KeepsOwners db (answer db result).1 := by
  cases result with
  | error e => exact .refl db
  | ok db' => exact h db' rfl

theorem account_keeps (r : AccountRequest) : KeepsOwners db (r.serve bcrypt settings db).1 := by
  cases r with
  | login now ipAddress jti username password =>
    change KeepsOwners db (Api.Accounts.login bcrypt settings now ipAddress jti username password db).1
    cases hl : Api.Accounts.login bcrypt settings now ipAddress jti username password db with | mk db' outcome =>
    obtain ⟨-, hsame, -⟩ := login_cases hl
    intro k hk
    exact .inl (hsame.isSome k ▸ hk)
  | logout bearer =>
    apply answer_keeps
    intro db' h
    obtain ⟨call, -, h⟩ := bind_eq_ok.mp h
    dsimp only at h
    split_ifs at h
    · cases h
      exact .of_users rfl
    · cases h
      exact .of_users rfl
  | changePassword bearer salt body =>
    change KeepsOwners db (Api.Accounts.changePassword bcrypt settings bearer salt body db).1
    cases hc : Api.Accounts.changePassword bcrypt settings bearer salt body db with | mk db' outcome =>
    obtain ⟨-, ⟨e, -, husers⟩ | ⟨old, new, -, -, husers, -⟩⟩ := changePassword_route hc
    · exact .of_users husers
    · exact .of_set husers
  | createUser bearer salt body =>
    apply answer_keeps
    intro db' h
    obtain ⟨⟨id, db₁⟩, hcreate, rfl⟩ := map_eq_ok.mp h
    obtain ⟨-, -, user, husers, -⟩ := createUser_route hcreate
    exact .of_set husers
  | updateUser bearer salt id body =>
    apply answer_keeps
    intro db' h
    obtain ⟨old, new, -, husers, -⟩ := updateUser_route h
    exact .of_set husers
  | deleteUser bearer id =>
    apply answer_keeps
    intro db' h
    obtain ⟨call, -, h⟩ := bind_eq_ok.mp h
    exact deleteUser_keeps (mapError_eq_ok.mp h)

theorem Owned.of_keeps (h : Owned db) (hkeeps : KeepsOwners db db')
    (hjobs : db'.cronJobs = db.cronJobs) : Owned db' := by
  intro id job hjob
  rw [hjobs] at hjob
  obtain ⟨owner, howner⟩ := h id job hjob
  rcases hkeeps job.ownerId (by rw [howner]; rfl) with hsome | hnothing
  · exact Option.isSome_iff_exists.mp hsome
  · exact absurd rfl (hnothing id job hjob)

theorem commit_owned (h : Owned db) {op : Operation} {n : Notification}
    (hc : op.commit db = .ok (db', n)) : Owned db' := by
  have husers := (commit_framed hc).users
  obtain ⟨call, hperformed⟩ := commit_ok hc
  have hwrite {id : ℕ} (hw : JobWrite call id db db') : Owned db' := by
    obtain ⟨⟨job, job', hget, -, hset, howner⟩, -, -⟩ := hw
    intro j stored hj
    rw [husers]
    rw [hset, Table.get?_set] at hj
    split_ifs at hj
    · obtain rfl := Option.some.inj hj
      rw [howner]
      exact h id job hget
    · exact h j stored hj
  have hsame (hs : SameJobs db db') : Owned db' :=
    h.of_keeps (.of_users husers) hs.cronJobs
  cases op with
  | createCronJob sender body =>
    obtain ⟨hcall, checked, id, hcreate⟩ := hperformed
    obtain ⟨user, huser, -, -, rfl⟩ := requirePermission_ok hcall
    obtain ⟨⟨⟩, -, hcreate⟩ := bind_eq_ok.mp hcreate
    obtain ⟨job, hjob, hcreate⟩ := bind_eq_ok.mp hcreate
    obtain ⟨howner, -, -⟩ := applySchedule_kept hjob
    cases hcreate
    intro j stored hj
    change (db.cronJobs.set db.cronJobs.nextId job).get? j = some stored at hj
    rw [Table.get?_set] at hj
    split_ifs at hj
    · obtain rfl := Option.some.inj hj
      rw [howner]
      exact ⟨user, huser⟩
    · exact h j stored hj
  | updateCronJob sender id body =>
    obtain ⟨-, checked, hc⟩ := hperformed
    exact hwrite (updateCronJob_write hc)
  | updateCronJobStatus sender id isActive => exact hwrite (updateCronJobStatus_write hperformed.2)
  | deleteCronJob sender id => exact hwrite (deleteCronJob_write hperformed.2)
  | createScript sender host body =>
    obtain ⟨-, checked, id, hc⟩ := hperformed
    exact hsame (createScript_same hc)
  | updateScript sender host id body =>
    obtain ⟨-, checked, hc⟩ := hperformed
    exact hsame (updateScript_same hc)
  | deleteScript sender id => exact hsame (deleteScript_same hperformed.2)

end

section Runs

variable (bcrypt : Bcrypt) (settings : Settings)

theorem serve_owned {db : Database} (h : Owned db) (r : Request) :
    Owned (r.serve bcrypt settings db).1 := by
  cases r with
  | account r => exact h.of_keeps (account_keeps r) (serve_frame bcrypt settings db r).cronJobs
  | edit op =>
    change Owned (answer db (Prod.fst <$> op.commit db)).1
    cases hc : op.commit db with
    | error e => exact h
    | ok result => exact commit_owned h hc
  | execute env sender jobId =>
    have hframe := execute_frame env sender jobId db
    exact h.of_keeps (.of_users hframe.users) hframe.cronJobs
  | fire env jobId =>
    have hframe := runScheduledJob_frame env jobId db
    exact h.of_keeps (.of_users hframe.users) hframe.cronJobs

/-- The request commits, the account is gone, and no job is left without its owner. -/
def Deletes (bearer : Bearer) (targetId : ℕ) (db : Database) : Prop :=
  ∃ db', Api.Accounts.deleteUser bearer targetId db = .ok db' ∧
    db'.users.get? targetId = none ∧ Owned db'

theorem protectLastAdmin_ok {db : Database} {user : User}
    (h : user.role = .admin → user.isActive → 1 < db.countActiveAdmins) :
    protectLastAdmin db user = .ok () := by
  unfold protectLastAdmin ensureNotLastActiveAdmin
  split_ifs with hrole hother hcount
  · rfl
  · rw [not_or, not_not, Bool.not_eq_true, Bool.not_eq_false'] at hother
    exact absurd (h hrole hother.2) (Nat.not_lt.mpr hcount)
  · rfl
  · rfl

/-- An account can be deleted exactly when it owns no job, not even a deleted one. -/
theorem deletes_iff {db : Database} (h : Owned db) {bearer : Bearer} {call : Call} {targetId : ℕ}
    {user : User} (hcall : authorized bearer .usersDelete db = .ok call)
    (huser : db.users.get? targetId = some user) (hother : targetId ≠ call.actor.id)
    (hadmin : user.role = .admin → user.isActive → 1 < db.countActiveAdmins) :
    Deletes bearer targetId db ↔ OwnsNothing db targetId := by
  have hget : getUserOrRaise db targetId = .ok user := getUserOrRaise_eq_ok.mpr huser
  have hservice : Services.Users.deleteUser call targetId db =
      if db.cronJobs.rows.any fun r ↦ r.2.ownerId = targetId then .error .integrity
      else Services.Users.deleteUser call targetId db := by
    split_ifs with howns
    · unfold Services.Users.deleteUser
      rw [hget, ok_bind, protectLastAdmin_ok hadmin, ok_bind, if_neg hother.symm, if_pos howns]
    · rfl
  have hroute : Api.Accounts.deleteUser bearer targetId db =
      (Services.Users.deleteUser call targetId db).mapError ofDeleteError := by
    unfold Api.Accounts.deleteUser
    rw [hcall, ok_bind]
  by_cases howns : (db.cronJobs.rows.any fun r ↦ r.2.ownerId = targetId) = true
  · have hnot : ¬OwnsNothing db targetId := fun hnothing ↦ ownsNothing_iff.mp hnothing howns
    refine iff_of_false ?_ hnot
    intro hdeletes
    obtain ⟨db', hdelete, -⟩ := hdeletes
    rw [hroute, hservice, if_pos howns] at hdelete
    cases hdelete
  · refine iff_of_true ?_ (ownsNothing_iff.mpr howns)
    have hok : ∃ db', Services.Users.deleteUser call targetId db = .ok db' := by
      unfold Services.Users.deleteUser
      rw [hget, ok_bind, protectLastAdmin_ok hadmin, ok_bind, if_neg hother.symm, if_neg howns]
      exact ⟨_, rfl⟩
    obtain ⟨db', hdelete⟩ := hok
    refine ⟨db', by rw [hroute, hdelete]; rfl, ?_, ?_⟩
    · rw [(deleteUser_ok hdelete).1, Table.get?_erase, if_pos rfl]
    · exact h.of_keeps (deleteUser_keeps hdelete) (deleteUser_frame hdelete).cronJobs

theorem accounts_deletable_iff {db : Database} (h : Owned db) (rs : List Request) :
    Always (step bcrypt settings) (fun db ↦ ∀ bearer call targetId user,
      authorized bearer .usersDelete db = .ok call → db.users.get? targetId = some user →
      targetId ≠ call.actor.id → (user.role = .admin → user.isActive → 1 < db.countActiveAdmins) →
      (Deletes bearer targetId db ↔ OwnsNothing db targetId)) db rs := by
  have hall : Always (step bcrypt settings) Owned db rs := by
    refine always ?_ h
    intro s r t hs hstep
    obtain rfl := Option.some.inj hstep
    exact serve_owned bcrypt settings hs r
  refine always_mono ?_ hall
  intro s hs bearer call targetId user hcall huser hother hadmin
  exact deletes_iff hs hcall huser hother hadmin

end Runs

section Sample

def sampleUser (username email : Text) (role : Role) : User :=
  { username
    email
    hashedPassword := []
    isActive := true
    role
    createdAt := 0
    updatedAt := 0
    lastLoginAt := none
    tokensInvalidBefore := none }

def sample : Database :=
  { Database.seeded with
    users := (Table.empty.set 1 (sampleUser "ana".toList "ana@example.com".toList .admin)).set 2
      (sampleUser "bea".toList "bea@example.com".toList .operator) }

def sampleBearer : Bearer where
  token := createAccessToken ⟨60, 10⟩ 0 ['t'] 1 [] []
  now := 0
  ipAddress := none

def sampleBcrypt : Bcrypt := ⟨fun password salt ↦ .ok (salt ++ password), fun _ _ ↦ false⟩

/-- The operator creates a job, and the administrator deletes it. -/
def sampleRequests : List Request :=
  [.edit (.createCronJob ⟨2, 0, none⟩
      { name := "nightly".toList, command := "backup".toList, scheduleExpression := "0 9 * * *".toList }),
    .edit (.deleteCronJob ⟨1, 0, none⟩ 1)]

/-- The operator owns only a deleted job, and yet the account cannot be deleted. -/
theorem not_every_account_deletable :
    ¬Always (step sampleBcrypt ⟨60, 10⟩) (fun db ↦ ∀ bearer call targetId user,
      authorized bearer .usersDelete db = .ok call → db.users.get? targetId = some user →
      targetId ≠ call.actor.id → (user.role = .admin → user.isActive → 1 < db.countActiveAdmins) →
      Deletes bearer targetId db) sample sampleRequests := by
  intro h
  have hlast : (exec (step sampleBcrypt ⟨60, 10⟩) sample sampleRequests).map (fun db ↦
      ((authorized sampleBearer .usersDelete db).toOption.map fun call ↦ call.actor.id,
        (db.users.get? 2).map Data.Records.User.role,
          (Api.Accounts.deleteUser sampleBearer 2 db).toOption.isSome)) =
      some (some 1, some .operator, false) := by decide
  obtain ⟨db, hdb, hdata⟩ := Option.map_eq_some_iff.mp hlast
  obtain ⟨hcall, hrest⟩ := Prod.mk.inj hdata
  obtain ⟨huser, hdelete⟩ := Prod.mk.inj hrest
  obtain ⟨user, huser, hrole⟩ := Option.map_eq_some_iff.mp huser
  cases hauth : authorized sampleBearer .usersDelete db with
  | error e =>
    rw [hauth] at hcall
    cases hcall
  | ok call =>
    rw [hauth] at hcall
    have hactor : call.actor.id = 1 := Option.some.inj hcall
    have hother : 2 ≠ call.actor.id := by
      rw [hactor]
      decide
    have hadmin : user.role = .admin → user.isActive → 1 < db.countActiveAdmins := by
      intro hadmin
      rw [hadmin] at hrole
      cases hrole
    obtain ⟨db', hok, -⟩ := h.last hdb sampleBearer call 2 user hauth huser hother hadmin
    rw [hok] at hdelete
    cases hdelete

theorem accounts_deletable_sample :
    Always (step sampleBcrypt ⟨60, 10⟩) (fun db ↦ ∀ bearer call targetId user,
      authorized bearer .usersDelete db = .ok call → db.users.get? targetId = some user →
      targetId ≠ call.actor.id → (user.role = .admin → user.isActive → 1 < db.countActiveAdmins) →
      (Deletes bearer targetId db ↔ OwnsNothing db targetId)) sample sampleRequests :=
  accounts_deletable_iff sampleBcrypt ⟨60, 10⟩ (fun _ _ h ↦ absurd h.symm (Option.some_ne_none _))
    sampleRequests

end Sample

end CronPanel.Access.Owners
