import CronPanel.Library.Run
import CronPanel.Api.Accounts
import CronPanel.Services.Snapshots

namespace CronPanel.Access.Administrators

open Library.Strings Library.Tables Library.Fallible Library.Run Core.Permissions Core.Security
open Data.Records Data.Repositories Schemas.Bodies Schemas.Accounts Services.CronJobs Services.Users
open Services.Snapshots Api.Errors Api.Accounts

inductive Mutation
  | update (salt : Text) (body : UserUpdate Role)
  | delete

/-- A request to `PUT` or `DELETE` an account whose sender has been authenticated. -/
structure AdminRequest where
  call : Call
  targetId : ℕ
  mutation : Mutation

/-- What the session of a request has read so far. -/
inductive Stage
  | authenticated
  | loaded (user : User)
  | counted (user : User) (activeAdmins : ℕ)

structure World where
  db : Database
  requests : Table ℕ (AdminRequest × Stage)

/-- A request is sent, and makes its reads and its commit one by one; it can be cut off. -/
inductive Action
  | updateUser (bearer : Bearer) (salt : Text) (targetId : ℕ) (body : UserUpdate Text)
  | deleteUser (bearer : Bearer) (targetId : ℕ)
  | load (k : ℕ)
  | count (k : ℕ)
  | commit (k : ℕ)
  | abort (k : ℕ)

/-- The target of a request; a session does not read the account of its own sender again. -/
def AdminRequest.load (request : AdminRequest) (db : Database) : Option User :=
  if request.call.actor.id = request.targetId then some request.call.actor.user
    else db.users.get? request.targetId

variable (bcrypt : Bcrypt) (settings : Settings)

def AdminRequest.commit (request : AdminRequest) (user : User) (activeAdmins : ℕ) (db : Database) :
    Except UserError Database :=
  match request.mutation with
  | .update salt body =>
    updateUserFrom bcrypt settings request.call salt request.targetId body activeAdmins user db
  | .delete => deleteUserFrom request.call request.targetId activeAdmins user db

def enqueue (w : World) (request : Except HttpError AdminRequest) : World :=
  match request with
  | .ok request => { w with requests := (w.requests.insert (request, .authenticated)).2 }
  | .error _ => w

def step (w : World) : Action → Option World
  | .updateUser bearer salt targetId body =>
    some (enqueue w (do
      let call ← authorized bearer .usersUpdate w.db
      let body ← checkBody body.validate
      .ok ⟨call, targetId, .update salt body⟩))
  | .deleteUser bearer targetId =>
    some (enqueue w (do
      let call ← authorized bearer .usersDelete w.db
      .ok ⟨call, targetId, .delete⟩))
  | .load k =>
    match w.requests.get? k with
    | some (request, .authenticated) =>
      some { w with requests := (request.load w.db).elim (w.requests.erase k) fun user ↦
        w.requests.set k (request, .loaded user) }
    | _ => none
  | .count k =>
    match w.requests.get? k with
    | some (request, .loaded user) =>
      some { w with requests := w.requests.set k (request, .counted user w.db.countActiveAdmins) }
    | _ => none
  | .commit k =>
    match w.requests.get? k with
    | some (request, .counted user activeAdmins) =>
      match request.commit bcrypt settings user activeAdmins w.db with
      | .ok db => some { w with db, requests := w.requests.erase k }
      | .error _ => some { w with requests := w.requests.erase k }
    | _ => none
  | .abort k => (w.requests.get? k).map fun _ ↦ { w with requests := w.requests.erase k }

def begin (db : Database) : World := ⟨db, .empty⟩

def isActiveAdmin (user : User) : Bool := user.isActive && user.role = .admin

/-- Some account is that of an active administrator. -/
def HasAdmin (db : Database) : Prop := ∃ id user, db.users.get? id = some user ∧ isActiveAdmin user

/-- A mutation takes from an account, as it was read, what makes it an active administrator. -/
def Mutation.Removes (user : User) : Mutation → Prop
  | .update _ body => (body.isActive = some false ∧ user.isActive) ∨
      ∃ role, body.role = some role ∧ role ≠ user.role ∧ role ≠ .admin
  | .delete => True

/-- A request that its own checks let through removes the account which is, by the time it
writes, that of the only active administrator: `_ensure_not_last_active_admin` would now refuse. -/
def Outdated (w : World) : Action → Prop
  | .commit k =>
    ∃ request user activeAdmins row,
      w.requests.get? k = some (request, .counted user activeAdmins) ∧
      Succeeds (request.commit bcrypt settings user activeAdmins w.db) ∧
      request.mutation.Removes user ∧
      w.db.users.get? request.targetId = some row ∧
      ensureNotLastActiveAdmin w.db row = .error .lastAdminProtected
  | _ => False

section Standings

variable {db db' : Database} {targetId : ℕ} {row : User}

theorem ensureNotLastActiveAdmin_error :
    ensureNotLastActiveAdmin db row = .error .lastAdminProtected ↔ isActiveAdmin row ∧
      db.countActiveAdmins ≤ 1 := by
  unfold ensureNotLastActiveAdmin isActiveAdmin
  split_ifs with hother hfew
  · apply iff_of_false (by simp)
    intro h
    obtain ⟨hadmin, -⟩ := h
    simp only [Bool.and_eq_true, decide_eq_true_eq] at hadmin
    obtain hrole | hactive := hother
    · exact hrole hadmin.2
    · rw [hadmin.1] at hactive
      cases hactive
  · rw [not_or, not_not, Bool.not_eq_true, Bool.not_eq_false'] at hother
    refine iff_of_true rfl ⟨?_, hfew⟩
    rw [hother.1, hother.2]
    rfl
  · exact iff_of_false (by simp) fun h ↦ hfew h.2

/-- An active administrator is the last one exactly when no other account is that of one. -/
theorem countActiveAdmins_le_one (hrow : db.users.get? targetId = some row)
    (hadmin : isActiveAdmin row) :
    db.countActiveAdmins ≤ 1 ↔ ¬∃ j user, j ≠ targetId ∧ db.users.get? j = some user ∧
      isActiveAdmin user := by
  have hcount : db.countActiveAdmins = db.users.count isActiveAdmin := by
    unfold Database.countActiveAdmins Table.count isActiveAdmin
    rw [List.countP_eq_length_filter]
    congr 2
    funext r
    rw [Bool.decide_and, Bool.decide_eq_true]
  rw [hcount, ← Table.one_lt_count hrow hadmin, not_lt]

theorem isActiveAdmin_congr {user user' : User} (h : standing user' = standing user) :
    isActiveAdmin user' = isActiveAdmin user := by
  obtain ⟨hactive, hrole⟩ := Prod.mk.inj h
  rw [isActiveAdmin, hactive, hrole, isActiveAdmin]

theorem restood_other {change : Bool × Role → Bool × Role}
    (h : Restood targetId change db db') {j : ℕ}
    (hj : j ≠ targetId) : (db'.users.get? j).map standing = (db.users.get? j).map standing := by
  rw [h j]
  simp only [if_neg hj, Option.map_id']

theorem restood_target {change : Bool × Role → Bool × Role} (h : Restood targetId change db db')
    (hrow : db.users.get? targetId = some row) :
    ∃ row', db'.users.get? targetId = some row' ∧ standing row' = change (standing row) := by
  have htarget := h targetId
  rw [hrow] at htarget
  simp only [Option.map_some, if_true] at htarget
  exact Option.map_eq_some_iff.mp htarget

end Standings

section Commit

variable {bcrypt settings} {request : AdminRequest} {user row : User} {activeAdmins : ℕ}
    {db db' : Database}

/-- What a commit does to the accounts that it is not about, and to the one it is about. -/
theorem commit_other (h : request.commit bcrypt settings user activeAdmins db = .ok db') {j : ℕ}
    (hj : j ≠ request.targetId) :
    (db'.users.get? j).map standing = (db.users.get? j).map standing := by
  unfold AdminRequest.commit at h
  split at h
  · exact restood_other (updateUserFrom_restood h) hj
  · rw [deleteUserFrom_users h, Table.get?_erase, if_neg hj]

theorem commit_keeps (h : request.commit bcrypt settings user activeAdmins db = .ok db')
    (hrow : db.users.get? request.targetId = some row) (hadmin : isActiveAdmin row)
    (hremoves : ¬request.mutation.Removes user) :
    ∃ row', db'.users.get? request.targetId = some row' ∧ isActiveAdmin row' := by
  unfold AdminRequest.commit at h
  split at h
  · rename_i salt body hmutation
    rw [hmutation, Mutation.Removes, not_or] at hremoves
    obtain ⟨hactive, hrole⟩ := hremoves
    obtain ⟨row', hrow', hstanding⟩ := restood_target (updateUserFrom_restood h) hrow
    obtain ⟨hisActive, hisRole⟩ := Prod.mk.inj hstanding
    rw [isActiveAdmin, Bool.and_eq_true, decide_eq_true_eq] at hadmin
    dsimp only [standing] at hisActive hisRole
    refine ⟨row', hrow', ?_⟩
    rw [isActiveAdmin, Bool.and_eq_true, decide_eq_true_eq]
    constructor
    · rw [hisActive, hadmin.1]
      cases hasked : body.isActive with
      | none => rfl
      | some value =>
        cases value with
        | true => exact ite_self _
        | false =>
          cases hheld : user.isActive with
          | true => exact absurd ⟨hasked, hheld⟩ hactive
          | false => rfl
    · rw [hisRole, hadmin.2]
      cases hasked : body.role with
      | none => rfl
      | some role =>
        rw [newColumn]
        split_ifs with hsame
        · rfl
        · by_contra hother
          exact hrole ⟨role, hasked, hsame, hother⟩
  · rename_i hmutation
    rw [hmutation] at hremoves
    exact absurd trivial hremoves

theorem commit_removes (h : request.commit bcrypt settings user activeAdmins db = .ok db')
    (hrow : db.users.get? request.targetId = some row) (hremoves : request.mutation.Removes user) :
    ∀ row', db'.users.get? request.targetId = some row' → isActiveAdmin row' = false := by
  intro row' hrow'
  unfold AdminRequest.commit at h
  split at h
  · rename_i salt body hmutation
    rw [hmutation, Mutation.Removes] at hremoves
    obtain ⟨row'', hrow'', hstanding⟩ := restood_target (updateUserFrom_restood h) hrow
    obtain rfl := Option.some.inj (hrow'.symm.trans hrow'')
    obtain ⟨hisActive, hisRole⟩ := Prod.mk.inj hstanding
    dsimp only [standing] at hisActive hisRole
    rw [isActiveAdmin, Bool.and_eq_false_iff, decide_eq_false_iff_not]
    obtain ⟨hasked, hheld⟩ | ⟨role, hasked, hne, hother⟩ := hremoves
    · left
      rw [hisActive, hasked, hheld]
      rfl
    · right
      rw [hisRole, hasked, newColumn, if_neg hne]
      exact hother
  · rw [deleteUserFrom_users h, Table.get?_erase, if_pos rfl] at hrow'
    cases hrow'

/-- A commit keeps an active administrator unless it removes the last one. -/
theorem commit_hasAdmin (h : request.commit bcrypt settings user activeAdmins db = .ok db')
    (hadmin : HasAdmin db)
    (hno : request.mutation.Removes user → ∀ row, db.users.get? request.targetId = some row →
      ensureNotLastActiveAdmin db row ≠ .error .lastAdminProtected) : HasAdmin db' := by
  have hkept :
      ∀ j other, j ≠ request.targetId → db.users.get? j = some other → isActiveAdmin other →
      HasAdmin db' := by
    intro j other hj hother hactive
    have hsame := commit_other h hj
    rw [hother] at hsame
    obtain ⟨other', hother', hstanding⟩ := Option.map_eq_some_iff.mp hsame
    exact ⟨j, other', hother', isActiveAdmin_congr hstanding ▸ hactive⟩
  obtain ⟨j, other, hother, hactive⟩ := hadmin
  by_cases hj : j = request.targetId
  · subst hj
    by_cases hremoves : request.mutation.Removes user
    · have hmore := mt (fun hfew ↦ ensureNotLastActiveAdmin_error.mpr ⟨hactive, hfew⟩)
        (hno hremoves other hother)
      rw [countActiveAdmins_le_one hother hactive, not_not] at hmore
      obtain ⟨i, another, hi, hanother, hactive'⟩ := hmore
      exact hkept i another hi hanother hactive'
    · obtain ⟨row', hrow', hactive'⟩ := commit_keeps h hother hactive hremoves
      exact ⟨_, row', hrow', hactive'⟩
  · exact hkept j other hj hother hactive

theorem commit_not_hasAdmin (h : request.commit bcrypt settings user activeAdmins db = .ok db')
    (hremoves : request.mutation.Removes user) (hrow : db.users.get? request.targetId = some row)
    (hlast : ensureNotLastActiveAdmin db row = .error .lastAdminProtected) : ¬HasAdmin db' := by
  obtain ⟨hactive, hfew⟩ := ensureNotLastActiveAdmin_error.mp hlast
  rw [countActiveAdmins_le_one hrow hactive] at hfew
  intro hadmin
  obtain ⟨j, other', hother', hactive'⟩ := hadmin
  by_cases hj : j = request.targetId
  · rw [commit_removes h hrow hremoves other' (hj ▸ hother')] at hactive'
    cases hactive'
  · have hsame := commit_other h hj
    rw [hother'] at hsame
    obtain ⟨other, hother, hstanding⟩ := Option.map_eq_some_iff.mp hsame.symm
    exact hfew ⟨j, other, hj, hother, isActiveAdmin_congr hstanding ▸ hactive'⟩

end Commit

section Runs

variable {bcrypt settings} {w w' : World}

theorem enqueue_db (w : World) (request : Except HttpError AdminRequest) :
    (enqueue w request).db = w.db := by
  cases request <;> rfl

theorem step_hasAdmin {a : Action} (h : HasAdmin w.db) (hno : ¬Outdated bcrypt settings w a)
    (hstep : step bcrypt settings w a = some w') : HasAdmin w'.db := by
  cases a with
  | updateUser bearer salt targetId body =>
    cases hstep
    rw [enqueue_db]
    exact h
  | deleteUser bearer targetId =>
    cases hstep
    rw [enqueue_db]
    exact h
  | load k =>
    dsimp only [step] at hstep
    split at hstep <;> cases hstep
    exact h
  | count k =>
    dsimp only [step] at hstep
    split at hstep <;> cases hstep
    exact h
  | commit k =>
    dsimp only [step] at hstep
    split at hstep
    · rename_i request user activeAdmins hk
      split at hstep
      · rename_i db hcommit
        cases hstep
        apply commit_hasAdmin hcommit h
        intro hremoves row hrow hlast
        exact hno ⟨request, user, activeAdmins, row, hk, ⟨db, hcommit⟩, hremoves, hrow, hlast⟩
      · cases hstep
        exact h
    · cases hstep
  | abort k =>
    obtain ⟨-, -, rfl⟩ := Option.map_eq_some_iff.mp hstep
    exact h

theorem outdated_step {a : Action} (h : Outdated bcrypt settings w a) :
    ∃ w', step bcrypt settings w a = some w' ∧ ¬HasAdmin w'.db := by
  cases a with
  | commit k =>
    obtain ⟨request, user, activeAdmins, row, hk, ⟨db, hcommit⟩, hremoves, hrow, hlast⟩ := h
    refine ⟨{ w with db, requests := w.requests.erase k }, ?_,
      commit_not_hasAdmin hcommit hremoves hrow hlast⟩
    dsimp only [step]
    rw [hk]
    dsimp only
    rw [hcommit]
  | _ => exact absurd h id

/-- Whatever the order of the steps of the requests, an active administrator remains exactly
while no request removes the one that is the last when it writes. -/
theorem admin_remains_iff (bcrypt : Bcrypt) (settings : Settings) {db : Database} (h : HasAdmin db)
    (as : List Action) :
    Always (step bcrypt settings) (fun w ↦ HasAdmin w.db) (begin db) as ↔
      Guarded (step bcrypt settings) (fun w a ↦ ¬Outdated bcrypt settings w a) (begin db) as :=
  always_iff_guarded (fun _ h ↦ h) (fun _ _ _ ↦ step_hasAdmin)
    (fun _ _ _ hno ↦ outdated_step (not_not.mp hno)) as h

end Runs

section Sample

def sampleAdmin (username email : Text) : User :=
  { username
    email
    hashedPassword := []
    isActive := true
    role := .admin
    createdAt := 0
    updatedAt := 0
    lastLoginAt := none
    tokensInvalidBefore := none }

def sample : Database :=
  { Database.seeded with
    users := (Table.empty.set 1 (sampleAdmin "ana".toList "ana@example.com".toList)).set 2
      (sampleAdmin "bea".toList "bea@example.com".toList) }

def sampleBearer (id : ℕ) : Bearer where
  token := createAccessToken ⟨60, 10⟩ 0 ['t'] id [] []
  now := 0
  ipAddress := none

def deactivation : UserUpdate Text := { isActive := some false }

/-- Two administrators deactivate each other at the same time. -/
def mutualDeactivation : List Action :=
  [.updateUser (sampleBearer 1) [] 2 deactivation, .updateUser (sampleBearer 2) [] 1 deactivation,
    .load 1, .load 2, .count 1, .count 2, .commit 1, .commit 2]

def sampleBcrypt : Bcrypt := ⟨fun password salt ↦ .ok (salt ++ password), fun _ _ ↦ false⟩

theorem mutual_deactivation_leaves_no_admin :
    ¬Always (step sampleBcrypt ⟨60, 10⟩) (fun w ↦ HasAdmin w.db)
      (begin sample) mutualDeactivation := by
  intro h
  have hlast : (exec (step sampleBcrypt ⟨60, 10⟩) (begin sample) mutualDeactivation).map (fun w ↦
      w.db.users.rows.map fun r ↦ isActiveAdmin r.2) = some [false, false] := by decide
  obtain ⟨w, hw, hnone⟩ := Option.map_eq_some_iff.mp hlast
  obtain ⟨id, user, huser, hactive⟩ := h.last hw
  have hmem : isActiveAdmin user ∈ w.db.users.rows.map fun r ↦ isActiveAdmin r.2 :=
    List.mem_map.mpr ⟨(id, user), Table.mem_rows.mpr huser, rfl⟩
  rw [hnone, hactive] at hmem
  cases hmem with
  | tail _ hmem => cases hmem with
    | tail _ hmem => cases hmem

theorem sample_hasAdmin : HasAdmin sample := ⟨1, sampleAdmin "ana".toList "ana@example.com".toList, rfl, rfl⟩

theorem admin_remains_mutual_deactivation :
    Always (step sampleBcrypt ⟨60, 10⟩) (fun w ↦ HasAdmin w.db) (begin sample) mutualDeactivation ↔
      Guarded (step sampleBcrypt ⟨60, 10⟩) (fun w a ↦ ¬Outdated sampleBcrypt ⟨60, 10⟩ w a)
        (begin sample)
        mutualDeactivation :=
  admin_remains_iff sampleBcrypt ⟨60, 10⟩ sample_hasAdmin mutualDeactivation

end Sample

end CronPanel.Access.Administrators
