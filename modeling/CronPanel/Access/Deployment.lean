import CronPanel.Access.Administrators
import CronPanel.Access.Attribution
import CronPanel.Data.InitDb

namespace CronPanel.Access.Deployment

open Library.Strings Library.Tables Library.Fallible Library.Run Core.Permissions Core.Security
open Core.PasswordPolicy Data.Records Data.Repositories Data.InitDb Schemas.Bodies Schemas.Accounts
open Services.CronJobs Services.Auth Services.Users Services.Snapshots Api.Errors Api.Accounts
open Api.Operations Api.Requests Api.Frames Sessions.Changes Administrators Attribution Panel Writes

/-- The volume of the container, and whether the panel is up on it. -/
structure Deployment where
  db : Database
  running : Bool

structure Boot where
  now : Instant
  salt : Text
  environ : Environ

inductive Event
  | start (boot : Boot)
  | stop
  | serve (r : Request)

/-- A volume on which nothing but the migrations has run. -/
def volume : Database := { Database.seeded with roles := [] }

section

variable (bcrypt : Bcrypt) (settings : Settings)

/-- `entrypoint.sh`, and the purge at the start of `lifespan`. -/
def start (boot : Boot) (db : Database) : Deployment :=
  match main bcrypt settings boot.salt boot.now boot.environ db with
  | (db, .ok ()) => ⟨db.purgeExpired boot.now, true⟩
  | (db, .error _) => ⟨db, false⟩

def step (d : Deployment) : Event → Option Deployment
  | .start boot => if d.running then none else some (start bcrypt settings boot d.db)
  | .stop => some { d with running := false }
  | .serve r => if d.running then some { d with db := (r.serve bcrypt settings d.db).1 } else none

end

/-- What the administration of the accounts is about. -/
def persona (user : User) : Text × Bool × Role := (user.username, user.isActive, user.role)

def Unmoved (db db' : Database) : Prop :=
  ∀ id, (db'.users.get? id).map persona = (db.users.get? id).map persona

/-- What a request does to the accounts, unless it deletes one; whoever changes one is an active
administrator, and there still is one afterwards. -/
inductive Moved (db db' : Database) : Prop
  | unmoved (h : Unmoved db db')
  | created (user : User) (hfree : db.userByUsername user.username = none)
    (hset : db'.users = db.users.set db.users.nextId user)
  | updated (id : ℕ) (old new : User) (hget : db.users.get? id = some old)
    (hset : db'.users = db.users.set id new) (hname : new.username = old.username)
    (hadmin : HasAdmin db')

/-- The request takes an account from the panel. -/
structure Deletes (bcrypt : Bcrypt) (settings : Settings) (db : Database) (r : Request) (id : ℕ) :
    Prop where
  request : ∃ bearer, r = .account (.deleteUser bearer id) ∧
    Succeeds (Api.Accounts.deleteUser bearer id db)
  users : (r.serve bcrypt settings db).1.users = db.users.erase id
  hasAdmin : HasAdmin (r.serve bcrypt settings db).1

section Requests

variable {bcrypt : Bcrypt} {settings : Settings} {db db' : Database} {call : Call} {id : ℕ}

theorem Unmoved.of_users (h : db'.users = db.users) : Unmoved db db' := by
  intro id
  rw [h]

theorem Unmoved.of_set {old new : User} (hget : db.users.get? id = some old)
    (hset : db'.users = db.users.set id new) (h : persona new = persona old) : Unmoved db db' := by
  intro j
  rw [hset, Table.get?_set]
  split_ifs with hj
  · rw [hj, hget, Option.map_some, Option.map_some, h]
  · rfl

theorem Unmoved.hasAdmin (h : Unmoved db db') (hadmin : HasAdmin db) : HasAdmin db' := by
  obtain ⟨id, user, hget, hactive⟩ := hadmin
  have hsame := h id
  rw [hget] at hsame
  obtain ⟨user', hget', hpersona⟩ := Option.map_eq_some_iff.mp hsame
  refine ⟨id, user', hget', ?_⟩
  rw [isActiveAdmin_congr (congrArg Prod.snd hpersona)]
  exact hactive

theorem login_unmoved (now : Instant) (ipAddress : Option Text) (jti username password : Text)
    (db : Database) :
    Unmoved db (login bcrypt settings now ipAddress jti username password db).1 := by
  cases hauth : authenticateUser bcrypt now ipAddress username password db with | mk db₁ found =>
  obtain ⟨husers, -, hfound⟩ := authenticateUser_cases hauth
  unfold login
  rw [hauth]
  cases found with
  | none => exact .of_users husers
  | some found =>
    obtain ⟨id, user⟩ := found
    have hset := congrArg
      (fun users ↦ Table.set users id { user with lastLoginAt := some now, updatedAt := now }) husers
    exact .of_set (hfound _ rfl) hset rfl

theorem changePassword_unmoved {salt current new : Text}
    (hactor : db.users.get? call.actor.id = some call.actor.user) :
    Unmoved db (Services.Auth.changePassword bcrypt settings call salt current new db).1 := by
  simp only [Services.Auth.changePassword]
  split_ifs
  · exact .of_users rfl
  · split
    · exact .of_users rfl
    · split
      · exact .of_users rfl
      · exact .of_set hactor rfl rfl

theorem logout_unmoved {bearer : Bearer} (h : logout bearer db = .ok db') : Unmoved db db' := by
  obtain ⟨call, -, h⟩ := bind_eq_ok.mp h
  cases h
  refine .of_users ?_
  split_ifs <;> rfl

theorem answer_moved {result : Except HttpError Database}
    (h : ∀ db', result = .ok db' → Moved db db') : Moved db (answer db result).1 := by
  cases result with
  | error e => exact .unmoved (.of_users rfl)
  | ok db' => exact h db' rfl

/-- An update that the panel takes does not take its last active administrator from it. -/
theorem updateUser_protects {salt : Text} {body : UserUpdate Role} {old : User}
    (hold : db.users.get? id = some old)
    (h : Services.Users.updateUser bcrypt settings call salt id body db = .ok db')
    (hself : call.actor.id = id) (hremoves : (Mutation.update salt body).Removes old) :
    ensureNotLastActiveAdmin db old ≠ .error .lastAdminProtected := by
  intro hlast
  obtain ⟨hadmin, -⟩ := ensureNotLastActiveAdmin_error.mp hlast
  rw [isActiveAdmin, Bool.and_eq_true, decide_eq_true_eq] at hadmin
  have hprotect : protectLastAdmin db old = .error .lastAdminProtected := by
    rw [protectLastAdmin, if_pos hadmin.2]
    exact hlast
  obtain ⟨old', u₁, db₁, u₂, db₂, u₃, db₃, u₄, hold', hactive, hrole, -, -⟩ := updateUser_eq_ok h
  obtain rfl := Option.some.inj (hold.symm.trans hold')
  unfold setActive at hactive
  rcases hremoves with ⟨hasked, hheld⟩ | ⟨role, hasked, hne, hother⟩
  · rw [hasked] at hactive
    dsimp only at hactive
    rw [hheld, if_neg Bool.false_ne_true, hprotect] at hactive
    cases hactive
  · have hkept : u₁.role = old.role := by
      split at hactive
      · cases hactive
        rfl
      · split_ifs at hactive
        · cases hactive
          rfl
        all_goals
          rw [hprotect] at hactive
          cases hactive
    rw [hasked, setRole] at hrole
    dsimp only at hrole
    rw [hkept, if_neg hne, if_pos hself] at hrole
    cases hrole

theorem updateUser_moved {salt : Text} {body : UserUpdate Role}
    (hactor : db.users.get? call.actor.id = some call.actor.user)
    (hadmin : isActiveAdmin call.actor.user)
    (h : Services.Users.updateUser bcrypt settings call salt id body db = .ok db') :
    Moved db db' := by
  obtain ⟨old, new, hold, hupdated⟩ := Sessions.Edits.updateUser_updated h
  obtain ⟨entries, hedited, -⟩ := hupdated.edited
  have hset := hedited.users hold
  refine .updated id old new hold hset (by rw [hupdated.row]) ?_
  by_cases hself : call.actor.id = id
  · let request : AdminRequest := ⟨call, id, .update salt body⟩
    have hcommit : request.commit bcrypt settings old db.countActiveAdmins db = .ok db' :=
      (updateUserFrom_row hold).trans h
    refine commit_hasAdmin hcommit ⟨_, _, hactor, hadmin⟩ ?_
    intro hremoves row hrow
    obtain rfl := Option.some.inj (hold.symm.trans hrow)
    exact updateUser_protects hold h hself hremoves
  · refine ⟨call.actor.id, call.actor.user, ?_, hadmin⟩
    rw [hset, Table.get?_set_ne _ _ hself]
    exact hactor

theorem account_moved {r : AccountRequest} (h : ∀ bearer id, r ≠ .deleteUser bearer id) :
    Moved db (r.serve bcrypt settings db).1 := by
  cases r with
  | login now ipAddress jti username password =>
    exact .unmoved (login_unmoved now ipAddress jti username password db)
  | logout bearer => exact answer_moved fun db' h ↦ .unmoved (logout_unmoved h)
  | changePassword bearer salt body =>
    refine .unmoved ?_
    change Unmoved db (Api.Accounts.changePassword bcrypt settings bearer salt body db).1
    unfold Api.Accounts.changePassword
    cases hcall : authenticated bearer db with
    | error e => exact .of_users rfl
    | ok call =>
      cases checkBody body.validate with
      | error e => exact .of_users rfl
      | ok checked => exact changePassword_unmoved (authenticated_user hcall).1
  | createUser bearer salt body =>
    refine answer_moved fun db' h ↦ ?_
    obtain ⟨⟨id, db₁⟩, hcreate, rfl⟩ := map_eq_ok.mp h
    obtain ⟨call, -, hcreate⟩ := bind_eq_ok.mp hcreate
    obtain ⟨checked, -, hcreate⟩ := bind_eq_ok.mp hcreate
    have hservice := mapError_eq_ok.mp hcreate
    have hfree := (createUser_iff.mp ⟨_, hservice⟩).username
    obtain ⟨rfl, user, -, hset, hname, -⟩ := createUser_entry hservice
    rw [← hname] at hfree
    exact .created user hfree hset
  | updateUser bearer salt id body =>
    refine answer_moved fun db' h ↦ ?_
    obtain ⟨call, hcall, h⟩ := bind_eq_ok.mp h
    obtain ⟨checked, -, h⟩ := bind_eq_ok.mp h
    obtain ⟨hactor, hadmin⟩ := authorized_admin (only_admin _ (.inr (.inl rfl))) hcall
    exact updateUser_moved hactor hadmin (mapError_eq_ok.mp h)
  | deleteUser bearer id => exact absurd rfl (h bearer id)

theorem deleteUser_deletes {bearer : Bearer}
    (h : Api.Accounts.deleteUser bearer id db = .ok db') :
    Deletes bcrypt settings db (.account (.deleteUser bearer id)) id := by
  have hserved : (Request.serve bcrypt settings db (.account (.deleteUser bearer id))).1 = db' := by
    change (answer db (Api.Accounts.deleteUser bearer id db)).1 = db'
    rw [h]
    rfl
  obtain ⟨call, hcall, hservice⟩ := bind_eq_ok.mp h
  obtain ⟨hactor, hadmin⟩ := authorized_admin (only_admin _ (.inr (.inr rfl))) hcall
  obtain ⟨user, -, hother, -, rfl⟩ := deleteUser_eq_ok (mapError_eq_ok.mp hservice)
  refine ⟨⟨bearer, rfl, _, h⟩, ?_, ?_⟩
  · rw [hserved]
    rfl
  · rw [hserved]
    refine ⟨call.actor.id, call.actor.user, ?_, hadmin⟩
    change (db.users.erase id).get? call.actor.id = _
    rw [Table.get?_erase, if_neg hother]
    exact hactor

theorem serve_moved (r : Request) :
    Moved db (r.serve bcrypt settings db).1 ∨ ∃ id, Deletes bcrypt settings db r id := by
  cases r with
  | account r =>
    cases r with
    | deleteUser bearer id =>
      cases h : Api.Accounts.deleteUser bearer id db with
      | ok db' => exact .inr ⟨id, deleteUser_deletes h⟩
      | error e =>
        refine .inl (.unmoved ?_)
        change Unmoved db (answer db (Api.Accounts.deleteUser bearer id db)).1
        rw [h]
        exact .of_users rfl
    | login | logout | changePassword | createUser | updateUser =>
      refine .inl (account_moved ?_)
      intro bearer id hsame
      cases hsame
  | edit op =>
    refine .inl (answer_moved fun db' h ↦ ?_)
    obtain ⟨⟨db₁, n⟩, hcommit, rfl⟩ := map_eq_ok.mp h
    exact .unmoved (.of_users (commit_framed hcommit).users)
  | execute env sender jobId =>
    exact .inl (.unmoved (.of_users (execute_frame env sender jobId db).users))
  | fire env jobId => exact .inl (.unmoved (.of_users (runScheduledJob_frame env jobId db).users))

theorem Moved.hasAdmin (h : Moved db db') (hadmin : HasAdmin db) : HasAdmin db' := by
  cases h with
  | unmoved h => exact h.hasAdmin hadmin
  | created user _ hset =>
    obtain ⟨id, found, hget, hactive⟩ := hadmin
    refine ⟨id, found, ?_, hactive⟩
    rw [hset, Table.get?_set_ne _ _ (Table.lt_nextId hget).ne]
    exact hget
  | updated _ _ _ _ _ _ hadmin => exact hadmin

theorem serve_hasAdmin (r : Request) (h : HasAdmin db) : HasAdmin (r.serve bcrypt settings db).1 := by
  rcases serve_moved r with hmoved | ⟨id, hdeletes⟩
  · exact hmoved.hasAdmin h
  · exact hdeletes.hasAdmin

theorem performed_roles {op : Operation} (h : Performed call db db' op) :
    db'.roles = db.roles := by
  cases op with
  | createCronJob sender body =>
    obtain ⟨-, checked, id, h⟩ := h
    obtain ⟨⟨⟩, -, h⟩ := bind_eq_ok.mp h
    obtain ⟨job, -, h⟩ := bind_eq_ok.mp h
    cases h
    rfl
  | updateCronJob sender id body =>
    obtain ⟨-, checked, h⟩ := h
    obtain ⟨job, -, h⟩ := bind_eq_ok.mp h
    obtain ⟨⟨⟩, -, h⟩ := bind_eq_ok.mp h
    obtain ⟨⟨edited, changes⟩, -, h⟩ := bind_eq_ok.mp h
    dsimp only at h
    split_ifs at h <;> cases h <;> rfl
  | updateCronJobStatus sender id isActive =>
    obtain ⟨job, -, h⟩ := bind_eq_ok.mp h.2
    split_ifs at h <;> cases h <;> rfl
  | deleteCronJob sender id =>
    obtain ⟨job, -, h⟩ := bind_eq_ok.mp h.2
    cases h
    rfl
  | createScript sender host body =>
    obtain ⟨-, checked, id, h⟩ := h
    obtain ⟨validated, -, h⟩ := bind_eq_ok.mp h
    dsimp only at h
    split_ifs at h
    cases h
    rfl
  | updateScript sender host id body =>
    obtain ⟨-, checked, h⟩ := h
    obtain ⟨script, -, h⟩ := bind_eq_ok.mp h
    obtain ⟨⟨edited, changes⟩, -, h⟩ := bind_eq_ok.mp h
    dsimp only at h
    split_ifs at h <;> cases h
    · rfl
    all_goals
      unfold Services.Scripts.recordScriptUpdate
      split_ifs <;> rfl
  | deleteScript sender id =>
    obtain ⟨script, -, h⟩ := bind_eq_ok.mp h.2
    split_ifs at h
    cases h
    rfl

theorem answer_roles {result : Except HttpError Database}
    (h : ∀ db', result = .ok db' → db'.roles = db.roles) : (answer db result).1.roles = db.roles := by
  cases result with
  | error e => rfl
  | ok db' => exact h db' rfl

theorem account_roles (r : AccountRequest) : (r.serve bcrypt settings db).1.roles = db.roles := by
  cases r with
  | login now ipAddress jti username password =>
    change (login bcrypt settings now ipAddress jti username password db).1.roles = db.roles
    have hauth : (authenticateUser bcrypt now ipAddress username password db).1.roles = db.roles := by
      unfold authenticateUser
      split
      · rfl
      · split_ifs <;> rfl
    unfold login
    split
    · rename_i hfound
      rw [hfound] at hauth
      exact hauth
    · rename_i hfound
      rw [hfound] at hauth
      exact hauth
  | logout bearer =>
    refine answer_roles fun db' h ↦ ?_
    obtain ⟨call, -, h⟩ := bind_eq_ok.mp h
    cases h
    split_ifs <;> rfl
  | changePassword bearer salt body =>
    change (Api.Accounts.changePassword bcrypt settings bearer salt body db).1.roles = db.roles
    unfold Api.Accounts.changePassword
    cases authenticated bearer db with
    | error e => rfl
    | ok call =>
      cases checkBody body.validate with
      | error e => rfl
      | ok checked =>
        change (Services.Auth.changePassword bcrypt settings call salt _ _ db).1.roles = db.roles
        simp only [Services.Auth.changePassword]
        split_ifs
        · rfl
        · split
          · rfl
          · split <;> rfl
  | createUser bearer salt body =>
    refine answer_roles fun db' h ↦ ?_
    obtain ⟨⟨id, db₁⟩, hcreate, rfl⟩ := map_eq_ok.mp h
    obtain ⟨call, -, hcreate⟩ := bind_eq_ok.mp hcreate
    obtain ⟨checked, -, hcreate⟩ := bind_eq_ok.mp hcreate
    obtain ⟨hashed, role, -, -, rfl, rfl⟩ := createUser_eq_ok (mapError_eq_ok.mp hcreate)
    rfl
  | updateUser bearer salt id body =>
    refine answer_roles fun db' h ↦ ?_
    obtain ⟨call, -, h⟩ := bind_eq_ok.mp h
    obtain ⟨checked, -, h⟩ := bind_eq_ok.mp h
    obtain ⟨old, new, -, hupdated⟩ := Sessions.Edits.updateUser_updated (mapError_eq_ok.mp h)
    obtain ⟨entries, hedited, -⟩ := hupdated.edited
    exact hedited.roles
  | deleteUser bearer id =>
    refine answer_roles fun db' h ↦ ?_
    obtain ⟨call, -, h⟩ := bind_eq_ok.mp h
    obtain ⟨user, -, -, -, rfl⟩ := deleteUser_eq_ok (mapError_eq_ok.mp h)
    rfl

/-- No request seeds or removes a role. -/
theorem serve_roles (r : Request) : (r.serve bcrypt settings db).1.roles = db.roles := by
  cases r with
  | account r => exact account_roles r
  | edit op =>
    refine answer_roles fun db' h ↦ ?_
    obtain ⟨⟨db₁, n⟩, hcommit, rfl⟩ := map_eq_ok.mp h
    obtain ⟨call, hperformed⟩ := commit_ok hcommit
    exact performed_roles hperformed
  | execute env sender jobId => exact (execute_frame env sender jobId db).roles
  | fire env jobId => exact (runScheduledJob_frame env jobId db).roles

end Requests

/-- The accounts have an active administrator once there are any, the roles are those of the
panel once they are seeded, and the panel does not run before. -/
structure Sound (d : Deployment) : Prop where
  roles : d.db.roles = [] ∨ d.db.roles = systemRoles
  accounts : d.db.users = .empty ∨ HasAdmin d.db
  running : d.running → d.db.roles = systemRoles ∧ HasAdmin d.db

section Starts

variable {bcrypt : Bcrypt} {settings : Settings} {boot : Boot} {db : Database}

theorem start_cases {d : Deployment} (h : start bcrypt settings boot db = d) :
    d.running = false ∧ (d.db = db ∨ d.db = seedRoles db) ∨
      ∃ db', main bcrypt settings boot.salt boot.now boot.environ db = (db', .ok ()) ∧
        d = ⟨db'.purgeExpired boot.now, true⟩ := by
  subst h
  unfold start
  cases hmain : main bcrypt settings boot.salt boot.now boot.environ db with | mk db' result =>
  cases result with
  | error e => exact .inl ⟨rfl, main_error hmain⟩
  | ok done => exact .inr ⟨db', rfl, rfl⟩

theorem start_sound (hroles : db.roles = [] ∨ db.roles = systemRoles)
    (haccounts : db.users = .empty ∨ HasAdmin db) : Sound (start bcrypt settings boot db) := by
  have hseeded := seedRoles_roles hroles
  rcases start_cases rfl with ⟨hstopped, hsame⟩ | ⟨db', hmain, hd⟩
  · refine ⟨?_, ?_, fun hrunning ↦ absurd (hstopped.symm.trans hrunning) Bool.false_ne_true⟩
    · rcases hsame with hsame | hsame <;> rw [hsame]
      · exact hroles
      · exact .inr hseeded
    · rcases hsame with hsame | hsame <;> rw [hsame] <;> exact haccounts
  · rw [hd]
    obtain ⟨-, hcreate⟩ := main_ok_iff.mp hmain
    obtain ⟨-, ⟨hnamed, rfl⟩ | ⟨hashedPassword, -, -, -, rfl⟩⟩ := createAdminUser_ok hcreate
    · have hadmin : HasAdmin db := by
        rcases haccounts with hempty | hadmin
        · rw [Database.userByUsername] at hnamed
          change (db.users.rows.find? _).isSome at hnamed
          rw [hempty] at hnamed
          cases hnamed
        · exact hadmin
      exact ⟨.inr hseeded, .inr hadmin, fun _ ↦ ⟨hseeded, hadmin⟩⟩
    · have hadmin : HasAdmin (Database.purgeExpired { seedRoles db with
          users := db.users.set db.users.nextId
            (adminUser boot.now boot.environ.adminUsername boot.environ.adminEmail hashedPassword) }
          boot.now) :=
        ⟨db.users.nextId, _, Table.get?_set_self _ _ _, rfl⟩
      exact ⟨.inr hseeded, .inr hadmin, fun _ ↦ ⟨hseeded, hadmin⟩⟩

theorem Sound.step {d d' : Deployment} (h : Sound d) {e : Event}
    (hstep : step bcrypt settings d e = some d') : Sound d' := by
  cases e with
  | start boot =>
    simp only [Deployment.step] at hstep
    split_ifs at hstep
    cases hstep
    exact start_sound h.roles h.accounts
  | stop =>
    cases hstep
    exact ⟨h.roles, h.accounts, fun hrunning ↦ absurd hrunning Bool.false_ne_true⟩
  | serve r =>
    simp only [Deployment.step] at hstep
    split_ifs at hstep with hrunning
    cases hstep
    obtain ⟨hroles, hadmin⟩ := h.running hrunning
    have hkept : HasAdmin (r.serve bcrypt settings d.db).1 := serve_hasAdmin r hadmin
    have hseeded : (r.serve bcrypt settings d.db).1.roles = systemRoles := (serve_roles r).trans hroles
    exact ⟨.inr hseeded, .inr hkept, fun _ ↦ ⟨hseeded, hkept⟩⟩

end Starts

/-- From a volume on which only the migrations have run, whatever the starts are given and whatever
is asked of the panel: it does not run without each of its roles and an active administrator, and
there are no accounts without one. -/
theorem running_administrable (bcrypt : Bcrypt) (settings : Settings) (es : List Event) :
    Always (step bcrypt settings) (fun d ↦ (d.db.users = .empty ∨ HasAdmin d.db) ∧
      (d.running → d.db.roles = systemRoles ∧ HasAdmin d.db)) ⟨volume, false⟩ es := by
  have hall : Always (step bcrypt settings) Sound ⟨volume, false⟩ es := by
    refine always (fun d e d' h hstep ↦ h.step hstep) ?_
    exact ⟨.inl rfl, .inl rfl, fun hrunning ↦ absurd hrunning Bool.false_ne_true⟩
  exact always_mono (fun d h ↦ ⟨h.accounts, h.running⟩) hall

/-- No two accounts have one username. -/
def Distinct (db : Database) : Prop :=
  ∀ i j user user', db.users.get? i = some user → db.users.get? j = some user' →
    user.username = user'.username → i = j

/-- The request of an administrator by which an account leaves the panel. -/
def Removes (bcrypt : Bcrypt) (settings : Settings) (username : Text) (d : Deployment) : Event → Prop
  | .serve (.account (.deleteUser bearer id)) => d.running ∧
      (∃ user, d.db.users.get? id = some user ∧ user.username = username) ∧
        Succeeds (Api.Accounts.deleteUser bearer id d.db)
  | _ => False

section Restarts

variable {bcrypt : Bcrypt} {settings : Settings} {boot : Boot} {db db' : Database} {username : Text}

theorem named_iff : (db.userByUsername username).isSome ↔
    ∃ id user, db.users.get? id = some user ∧ user.username = username := by
  rw [Database.userByUsername, List.find?_isSome]
  constructor
  · rintro ⟨⟨id, user⟩, hmem, hname⟩
    exact ⟨id, user, Table.mem_rows.mp hmem, of_decide_eq_true hname⟩
  · rintro ⟨id, user, hget, hname⟩
    exact ⟨(id, user), Table.mem_rows.mpr hget, decide_eq_true hname⟩

theorem Distinct.unmoved (h : Distinct db) (hmoved : Unmoved db db') : Distinct db' := by
  intro i j user user' hi hj hname
  have hold {k : ℕ} {u : User} (hk : db'.users.get? k = some u) :
      ∃ v, db.users.get? k = some v ∧ v.username = u.username := by
    have hsame := hmoved k
    rw [hk] at hsame
    obtain ⟨v, hv, hpersona⟩ := Option.map_eq_some_iff.mp hsame.symm
    exact ⟨v, hv, congrArg Prod.fst hpersona⟩
  obtain ⟨v, hv, hvname⟩ := hold hi
  obtain ⟨v', hv', hvname'⟩ := hold hj
  exact h i j v v' hv hv' (hvname.trans (hname.trans hvname'.symm))

theorem Distinct.insert (h : Distinct db) {user : User}
    (hfree : db.userByUsername user.username = none)
    (hset : db'.users = db.users.set db.users.nextId user) : Distinct db' := by
  have hnew {k : ℕ} {u : User} (hk : db.users.get? k = some u) : u.username ≠ user.username := by
    intro hname
    have hnamed := named_iff.mpr ⟨k, u, hk, hname⟩
    rw [hfree] at hnamed
    cases hnamed
  intro i j u u' hi hj hname
  rw [hset, Table.get?_set] at hi hj
  split_ifs at hi hj with hinew hjnew hjnew
  · exact hinew.trans hjnew.symm
  · obtain rfl := Option.some.inj hi
    exact absurd hname.symm (hnew hj)
  · obtain rfl := Option.some.inj hj
    exact absurd hname (hnew hi)
  · exact h i j u u' hi hj hname

theorem Distinct.moved (h : Distinct db) (hmoved : Moved db db') : Distinct db' := by
  cases hmoved with
  | unmoved hmoved => exact h.unmoved hmoved
  | created user hfree hset => exact h.insert hfree hset
  | updated id old new hget hset hname _ =>
    intro i j u u' hi hj hsame
    have hold {k : ℕ} {v : User} (hk : db'.users.get? k = some v) :
        ∃ w, db.users.get? k = some w ∧ w.username = v.username := by
      rw [hset, Table.get?_set] at hk
      split_ifs at hk with hkid
      · obtain rfl := Option.some.inj hk
        exact ⟨old, hkid ▸ hget, hname.symm⟩
      · exact ⟨v, hk, rfl⟩
    obtain ⟨w, hw, hwname⟩ := hold hi
    obtain ⟨w', hw', hwname'⟩ := hold hj
    exact h i j w w' hw hw' (hwname.trans (hsame.trans hwname'.symm))

theorem Distinct.erase (h : Distinct db) {id : ℕ} (hset : db'.users = db.users.erase id) :
    Distinct db' := by
  intro i j u u' hi hj hsame
  rw [hset, Table.get?_erase] at hi hj
  split_ifs at hi hj
  exact h i j u u' hi hj hsame

theorem Moved.named (h : Moved db db') (hnamed : (db.userByUsername username).isSome) :
    (db'.userByUsername username).isSome := by
  rw [named_iff] at hnamed ⊢
  obtain ⟨id, user, hget, hname⟩ := hnamed
  cases h with
  | unmoved hmoved =>
    have hsame := hmoved id
    rw [hget] at hsame
    obtain ⟨user', hget', hpersona⟩ := Option.map_eq_some_iff.mp hsame
    exact ⟨id, user', hget', (congrArg Prod.fst hpersona).trans hname⟩
  | created user' _ hset =>
    refine ⟨id, user, ?_, hname⟩
    rw [hset, Table.get?_set_ne _ _ (Table.lt_nextId hget).ne]
    exact hget
  | updated j old new hold hset hkept _ =>
    by_cases hj : id = j
    · subst hj
      obtain rfl := Option.some.inj (hget.symm.trans hold)
      exact ⟨id, new, by rw [hset, Table.get?_set_self], hkept.trans hname⟩
    · exact ⟨id, user, by rw [hset, Table.get?_set_ne _ _ hj]; exact hget, hname⟩

theorem seedRoles_seeded (h : db.roles = systemRoles) : seedRoles db = db := by
  have hroles : systemRoles.foldl seedRole db.roles = db.roles := by
    rw [h]
    rfl
  rw [seedRoles, hroles]

/-- The environment passes what a start checks before it looks at the accounts. -/
def Accepted (settings : Settings) (environ : Environ) : Prop :=
  (environ.adminUsername ≠ [] ∧ environ.adminEmail ≠ [] ∧ environ.password ≠ []) ∧
    validatePassword settings.passwordMinLength environ.password environ.adminUsername = []

structure Lasting (username : Text) (d : Deployment) : Prop where
  roles : d.db.roles = systemRoles
  distinct : Distinct d.db
  named : (d.db.userByUsername username).isSome

theorem start_running {d : Deployment} (h : start bcrypt settings boot db = d) (hd : d.running) :
    ∃ db', main bcrypt settings boot.salt boot.now boot.environ db = (db', .ok ()) ∧
      d = ⟨db'.purgeExpired boot.now, true⟩ := by
  rcases start_cases h with ⟨hstopped, -⟩ | hstarted
  · rw [hstopped] at hd
    cases hd
  · exact hstarted

theorem start_neutral {d : Deployment} (haccepted : Accepted settings boot.environ)
    (h : Lasting boot.environ.adminUsername d) :
    start bcrypt settings boot d.db = ⟨d.db.purgeExpired boot.now, true⟩ := by
  have hcreate : createAdminUser bcrypt settings boot.salt boot.now boot.environ.adminUsername
      boot.environ.adminEmail boot.environ.password (seedRoles d.db) = .ok d.db := by
    have hadmin : ¬Role.admin ∉ d.db.roles := by
      rw [h.roles]
      decide
    rw [seedRoles_seeded h.roles, createAdminUser, if_neg (not_not.mpr haccepted.2),
      if_neg hadmin, if_pos h.named]
  rw [start, main_ok_iff.mpr ⟨haccepted.1, hcreate⟩]

/-- A start that leaves the accounts as they are has found its administrator among them. -/
theorem named_of_neutral
    (h : start bcrypt settings boot db = ⟨db.purgeExpired boot.now, true⟩) :
    (db.userByUsername boot.environ.adminUsername).isSome := by
  obtain ⟨db', hmain, hsame⟩ := start_running h rfl
  obtain ⟨-, ⟨hnamed, -⟩ | ⟨hashedPassword, -, -, -, rfl⟩⟩ :=
    createAdminUser_ok (main_ok_iff.mp hmain).2
  · exact hnamed
  · have husers := congrArg (fun d : Deployment ↦ d.db.users.get? db.users.nextId) hsame
    change db.users.get? db.users.nextId =
      (db.users.set db.users.nextId _).get? db.users.nextId at husers
    rw [Table.get?_nextId, Table.get?_set_self] at husers
    cases husers

theorem Lasting.of_users {d d' : Deployment} (h : Lasting username d)
    (hroles : d'.db.roles = d.db.roles) (husers : d'.db.users = d.db.users) :
    Lasting username d' := by
  refine ⟨hroles.trans h.roles, ?_, ?_⟩
  · unfold Distinct
    rw [husers]
    exact h.distinct
  · rw [Database.userByUsername, husers]
    exact h.named

theorem Lasting.started {d : Deployment} (h : Lasting username d) :
    Lasting username (start bcrypt settings boot d.db) := by
  rcases start_cases (Eq.refl (start bcrypt settings boot d.db)) with ⟨-, hsame⟩ | ⟨db', hmain, hd⟩
  · rcases hsame with hsame | hsame
    · exact h.of_users (by rw [hsame]) (by rw [hsame])
    · rw [seedRoles_seeded h.roles] at hsame
      exact h.of_users (by rw [hsame]) (by rw [hsame])
  · have hcreate := (main_ok_iff.mp hmain).2
    rw [seedRoles_seeded h.roles] at hcreate
    rw [hd]
    obtain ⟨-, ⟨-, rfl⟩ | ⟨hashedPassword, hfree, -, -, rfl⟩⟩ := createAdminUser_ok hcreate
    · exact h.of_users rfl rfl
    · let added := adminUser boot.now boot.environ.adminUsername boot.environ.adminEmail hashedPassword
      refine ⟨h.roles, h.distinct.moved (.created added hfree rfl), ?_⟩
      exact (Moved.created added hfree rfl).named h.named

theorem Lasting.step {d d' : Deployment} (h : Lasting username d) {e : Event}
    (hno : ¬Removes bcrypt settings username d e) (hstep : step bcrypt settings d e = some d') :
    Lasting username d' := by
  cases e with
  | start boot =>
    simp only [Deployment.step] at hstep
    split_ifs at hstep
    cases hstep
    exact h.started
  | stop =>
    cases hstep
    exact ⟨h.roles, h.distinct, h.named⟩
  | serve r =>
    simp only [Deployment.step] at hstep
    split_ifs at hstep with hrunning
    cases hstep
    refine ⟨(serve_roles r).trans h.roles, ?_, ?_⟩
    · rcases serve_moved r with hmoved | ⟨id, hdeletes⟩
      · exact h.distinct.moved hmoved
      · exact h.distinct.erase hdeletes.users
    · rcases serve_moved r with hmoved | ⟨id, hdeletes⟩
      · exact hmoved.named h.named
      · obtain ⟨j, user, hget, hname⟩ := named_iff.mp h.named
        obtain ⟨⟨bearer, rfl, hsucceeds⟩, husers, -⟩ := hdeletes
        refine named_iff.mpr ⟨j, user, ?_, hname⟩
        rw [husers, Table.get?_erase, if_neg]
        · exact hget
        · rintro rfl
          exact hno ⟨hrunning, ⟨user, hget, hname⟩, hsucceeds⟩

/-- Without the account, a start with its environment does not leave the accounts as they are. -/
theorem removed_not_neutral {d : Deployment} (h : Lasting boot.environ.adminUsername d) {e : Event}
    (hremoves : Removes bcrypt settings boot.environ.adminUsername d e) :
    ∃ d', step bcrypt settings d e = some d' ∧
      start bcrypt settings boot d'.db ≠ ⟨d'.db.purgeExpired boot.now, true⟩ := by
  unfold Removes at hremoves
  split at hremoves
  · rename_i bearer id
    obtain ⟨hrunning, ⟨user, hget, hname⟩, db', hdelete⟩ := hremoves
    have husers := (@deleteUser_deletes bcrypt settings _ _ _ _ hdelete).users
    refine ⟨_, if_pos hrunning, ?_⟩
    intro hneutral
    obtain ⟨j, user', hget', hname'⟩ := named_iff.mp (named_of_neutral hneutral)
    change Table.get? (Request.serve bcrypt settings d.db _).1.users j = some user' at hget'
    rw [husers, Table.get?_erase] at hget'
    split_ifs at hget' with hj
    exact hj (h.distinct j id user' user hget' hget (hname'.trans hname.symm))
  · exact absurd hremoves not_false

end Restarts

/-- After a first start on an empty volume, a start with the same environment never fails and
leaves everything but the expired revocations as it is, exactly as long as nobody deletes the
account of that environment. -/
theorem restart_neutral_iff {bcrypt : Bcrypt} {settings : Settings} {boot : Boot}
    (h : (start bcrypt settings boot volume).running) (es : List Event) :
    Always (step bcrypt settings) (fun d ↦ ∀ again : Boot, again.environ = boot.environ →
        start bcrypt settings again d.db = ⟨d.db.purgeExpired again.now, true⟩)
      (start bcrypt settings boot volume) es ↔
    Guarded (step bcrypt settings)
      (fun d e ↦ ¬Removes bcrypt settings boot.environ.adminUsername d e)
      (start bcrypt settings boot volume) es := by
  obtain ⟨db', hmain, hd⟩ := start_running rfl h
  obtain ⟨hset, hcreate⟩ := main_ok_iff.mp hmain
  obtain ⟨hpolicy, hcreated⟩ := createAdminUser_ok hcreate
  have haccepted : Accepted settings boot.environ := ⟨hset, hpolicy⟩
  have hlasting : Lasting boot.environ.adminUsername (start bcrypt settings boot volume) := by
    rw [hd]
    obtain ⟨hnamed, -⟩ | ⟨hashedPassword, -, -, -, rfl⟩ := hcreated
    · cases hnamed
    · refine ⟨rfl, ?_, named_iff.mpr ⟨1, _, rfl, rfl⟩⟩
      intro i j user user' hi hj _
      have hfirst {k : ℕ} {u : User} (hk : (Table.empty.set 1 (adminUser boot.now
          boot.environ.adminUsername boot.environ.adminEmail hashedPassword)).get? k = some u) :
          k = 1 := by
        rw [Table.get?_set] at hk
        split_ifs at hk with hk1
        · exact hk1
        · cases hk
      exact (hfirst hi).trans (hfirst hj).symm
  refine always_iff_guarded ?_ ?_ ?_ es hlasting
  · intro d hd again hsame
    exact start_neutral (hsame ▸ haccepted) (hsame ▸ hd)
  · intro d e d' hd hno hstep
    exact hd.step hno hstep
  · intro d e hd hnot
    obtain ⟨d', hstep, hdiffers⟩ := removed_not_neutral hd (not_not.mp hnot)
    exact ⟨d', hstep, fun hall ↦ hdiffers (hall boot rfl)⟩

section Sample

def firstBoot : Boot where
  now := 0
  salt := "$2b$12$Zq0fXyE1mGkVn5bS8tLrOu".toList
  environ := ⟨"admin".toList, "admin@example.com".toList, "Cronograma2024".toList, []⟩

/-- A second administrator deletes the first one and takes the email; then the container is started
again. -/
def takeover : List Event :=
  [.serve (.account (.createUser (Administrators.sampleBearer 1) []
      ⟨"lucia".toList, "lucia@example.com".toList, "Planificador7".toList, "admin".toList⟩)),
    .serve (.account (.deleteUser (Administrators.sampleBearer 2) 1)),
    .serve (.account (.updateUser (Administrators.sampleBearer 2) [] 2
      { email := some "admin@example.com".toList })),
    .stop, .start firstBoot]

theorem restart_neutral_iff_takeover :
    (exec (step Administrators.sampleBcrypt ⟨60, 10⟩)
        (start Administrators.sampleBcrypt ⟨60, 10⟩ firstBoot volume) takeover).map
      (fun d ↦ (d.running, d.db.users.rows.map fun r ↦ r.2.username)) =
      some (false, ["lucia".toList]) ∧
    (Always (step Administrators.sampleBcrypt ⟨60, 10⟩)
        (fun d ↦ ∀ again : Boot, again.environ = firstBoot.environ →
          start Administrators.sampleBcrypt ⟨60, 10⟩ again d.db = ⟨d.db.purgeExpired again.now, true⟩)
        (start Administrators.sampleBcrypt ⟨60, 10⟩ firstBoot volume) takeover ↔
      Guarded (step Administrators.sampleBcrypt ⟨60, 10⟩)
        (fun d e ↦ ¬Removes Administrators.sampleBcrypt ⟨60, 10⟩ firstBoot.environ.adminUsername d e)
        (start Administrators.sampleBcrypt ⟨60, 10⟩ firstBoot volume) takeover) := by
  constructor
  · decide
  · exact restart_neutral_iff (by decide) takeover

end Sample

end CronPanel.Access.Deployment
